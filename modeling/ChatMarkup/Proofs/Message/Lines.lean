import ChatMarkup.Proofs.Html.Decoding
import ChatMarkup.Proofs.Message.Source

/-! # Messages of several lines

A line feed takes a message apart into two messages that know nothing of each other, whatever stands
open on its two sides: the tokens are those of the first part, a line break and those of the second.
What is written from them, as literal text or as HTML, falls apart in the same way. Only a wrapper is
written once around both.
-/
namespace ChatMarkup

theorem joinLines_append {ps qs : List (List Token)} (hps : ps ≠ []) (hqs : qs ≠ []) :
    joinLines (ps ++ qs) = joinLines ps ++ .lineBreak :: joinLines qs := by
  induction ps with
  | nil => exact absurd rfl hps
  | cons p ps ih =>
    cases ps with
    | nil =>
      obtain ⟨q, qs, rfl⟩ := List.exists_cons_of_ne_nil hqs
      rw [joinLines_singleton]
      exact joinLines_cons_cons p q qs
    | cons next ps =>
      have hrest := ih (List.cons_ne_nil next ps)
      rw [List.cons_append] at hrest
      rw [List.cons_append, List.cons_append, joinLines_cons_cons, hrest, joinLines_cons_cons,
        List.append_assoc, List.cons_append]

theorem toList_append_newline (a b : String) :
    (a ++ "\n" ++ b).toList = a.toList ++ '\n' :: b.toList := by
  simp

/-- However the lines are read, those on the two sides of a line feed are read on their own. -/
theorem joinLines_map_lines_append (f : List Char → List Token) (s t : List Char) :
    joinLines ((Text.lines (s ++ '\n' :: t)).map f) =
      joinLines ((Text.lines s).map f) ++ .lineBreak :: joinLines ((Text.lines t).map f) := by
  have hne : ∀ u, (Text.lines u).map f ≠ [] :=
    fun u => mt List.map_eq_nil_iff.1 (List.splitOn_ne_nil '\n' u)
  have hlines : Text.lines (s ++ '\n' :: t) = Text.lines s ++ Text.lines t :=
    List.splitOn_append_cons_self s t
  rw [hlines, List.map_append, joinLines_append (hne s) (hne t)]

theorem messageTokens_append_newline (s t : List Char) :
    messageTokens (s ++ '\n' :: t) = messageTokens s ++ .lineBreak :: messageTokens t :=
  joinLines_map_lines_append lineTokens s t

theorem literalText_append (ts us : List Token) :
    literalText (ts ++ us) = literalText ts ++ literalText us := by
  rw [literalText, literals_append, String.ofList_append]
  rfl

namespace Html

/-- The same class names without a wrapper. -/
def ClassNames.bare (classes : ClassNames) : ClassNames := { classes with wrapper := "" }

/-- HTML inside the element that a whole message is wrapped in. -/
def wrapped (className html : String) : String :=
  "<span" ++ String.ofList (classAttribute className) ++ ">" ++ html ++ "</span>"

theorem tokensParts_bare (classes : ClassNames) (ts : List Token) :
    tokensParts classes.bare ts = tokensParts classes ts := by
  induction ts using tokensInduction with
  | nil => rfl
  | text s ts ih => rw [tokensParts, tokensParts, ih]; rfl
  | styled style inner ts hinner ih =>
    rw [tokensParts, tokensParts, ih, tokenParts, tokenParts, hinner]
  | monospace s ts ih => rw [tokensParts, tokensParts, ih]; rfl
  | quote inner ts hinner ih =>
    rw [tokensParts, tokensParts, ih, tokenParts, tokenParts, hinner]
    rfl
  | lineBreak ts ih => rw [tokensParts, tokensParts, ih]; rfl

theorem toHtml_bare (classes : ClassNames) (ts : List Token) :
    toHtml ts classes.bare = String.ofList (writeParts (tokensParts classes ts)) := by
  have hwrapper : classes.bare.wrapper = "" := rfl
  rw [toHtml, messageParts, if_pos hwrapper, tokensParts_bare]

theorem ClassNames.bare_eq_self {classes : ClassNames} (h : classes.wrapper = "") :
    classes.bare = classes := by
  rw [bare, ← h]

theorem toHtml_eq_wrapped {classes : ClassNames} (h : classes.wrapper ≠ "") (ts : List Token) :
    toHtml ts classes = wrapped classes.wrapper (toHtml ts classes.bare) := by
  have hopening : String.ofList (Part.opening .span classes.wrapper).write =
      "<span" ++ String.ofList (classAttribute classes.wrapper) ++ ">" := by
    rw [Part.write, ← List.cons_append, String.ofList_append, ← List.cons_append,
      String.ofList_append]
    rfl
  rw [toHtml, messageParts, if_neg h, writeParts_enclose, String.ofList_append,
    String.ofList_append, hopening, ← toHtml_bare, ← String.append_assoc]
  rfl

/-- Without a wrapper, what stands behind a line break is written behind it. -/
theorem toHtml_bare_append_lineBreak (classes : ClassNames) (ts us : List Token) :
    toHtml (ts ++ .lineBreak :: us) classes.bare =
      toHtml ts classes.bare ++ "<br>" ++ toHtml us classes.bare := by
  simp only [toHtml_bare]
  rw [tokensParts_append, writeParts_append, String.ofList_append, tokensParts, writeParts_append,
    String.ofList_append, String.append_assoc]
  rfl

end Html

/-- A message is rendered line by line: a line feed between two messages becomes a line break between
their tokens, a line feed between their literal texts and a break between their HTML. -/
theorem render_append_newline (a b : String) :
    render (a ++ "\n" ++ b) = render a ++ [.lineBreak] ++ render b ∧
    literalText (render (a ++ "\n" ++ b)) =
      literalText (render a) ++ "\n" ++ literalText (render b) ∧
    ∀ classes : Html.ClassNames,
      (classes.wrapper = "" → toHtml (render (a ++ "\n" ++ b)) classes =
        toHtml (render a) classes ++ "<br>" ++ toHtml (render b) classes) ∧
      (classes.wrapper ≠ "" →
        (∀ text, toHtml (render text) classes =
          Html.wrapped classes.wrapper (toHtml (render text) classes.bare)) ∧
        toHtml (render (a ++ "\n" ++ b)) classes = Html.wrapped classes.wrapper
          (toHtml (render a) classes.bare ++ "<br>" ++ toHtml (render b) classes.bare)) := by
  have htokens : render (a ++ "\n" ++ b) = render a ++ .lineBreak :: render b := by
    rw [render, toList_append_newline, messageTokens_append_newline]
    rfl
  have hbare : ∀ classes : Html.ClassNames, toHtml (render (a ++ "\n" ++ b)) classes.bare =
      toHtml (render a) classes.bare ++ "<br>" ++ toHtml (render b) classes.bare := by
    intro classes
    rw [htokens, Html.toHtml_bare_append_lineBreak]
  refine ⟨by rw [htokens, List.append_assoc]; rfl, ?_, fun classes => ⟨?_, ?_⟩⟩
  · have hbreak : literalText (.lineBreak :: render b) = "\n" ++ literalText (render b) :=
      literalText_append [.lineBreak] (render b)
    rw [htokens, literalText_append, hbreak, String.append_assoc]
  · intro h
    rw [← Html.ClassNames.bare_eq_self h]
    exact hbare classes
  · intro h
    refine ⟨fun text => Html.toHtml_eq_wrapped h (render text), ?_⟩
    rw [Html.toHtml_eq_wrapped h, hbare]

end ChatMarkup
