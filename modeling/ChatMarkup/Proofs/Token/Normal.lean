import ChatMarkup.Token

/-! # The normal form of a token list

Empty texts stand for nothing, and a text cut in two says the same as the whole text. In a normal list
there is no empty text and no two texts are neighbours, at every level. Every token list has a normal
form, and the normal lists are those that are their own normal form.
-/
namespace ChatMarkup

/-- A token in front of a list. A text goes into the text that the list starts with; an empty text is
left out. -/
def prependToken : Token → List Token → List Token
  | .text s, .text t :: ts => .text (s ++ t) :: ts
  | .text s, ts => if s = "" then ts else .text s :: ts
  | t, ts => t :: ts

mutual
def Token.normal : Token → Token
  | .text s => .text s
  | .styled style ts => .styled style (normalize ts)
  | .monospace s => .monospace s
  | .quote ts => .quote (normalize ts)
  | .lineBreak => .lineBreak
def normalize : List Token → List Token
  | [] => []
  | t :: ts => prependToken t.normal (normalize ts)
end

/-- The list does not start with a text. -/
def StartsApart (ts : List Token) : Prop := ∀ s us, ts ≠ .text s :: us

inductive Normal : List Token → Prop
  | nil : Normal []
  | text {s : String} {ts : List Token} :
      s ≠ "" → StartsApart ts → Normal ts → Normal (.text s :: ts)
  | styled {style : Style} {inner ts : List Token} :
      Normal inner → Normal ts → Normal (.styled style inner :: ts)
  | monospace {s : String} {ts : List Token} : Normal ts → Normal (.monospace s :: ts)
  | quote {inner ts : List Token} : Normal inner → Normal ts → Normal (.quote inner :: ts)
  | lineBreak {ts : List Token} : Normal ts → Normal (.lineBreak :: ts)

theorem startsApart_nil : StartsApart [] := by
  intro s us h
  cases h

theorem startsApart_cons {t : Token} (h : ∀ s, t ≠ .text s) (ts : List Token) :
    StartsApart (t :: ts) := by
  intro s us hts
  exact h s (List.cons.inj hts).1

theorem startsText_or_startsApart (ts : List Token) :
    (∃ s us, ts = .text s :: us) ∨ StartsApart ts := by
  by_cases h : ∃ s us, ts = .text s :: us
  · exact Or.inl h
  · exact Or.inr fun s us hts => h ⟨s, us, hts⟩

theorem prependToken_text {ts : List Token} (h : StartsApart ts) (s : String) :
    prependToken (.text s) ts = if s = "" then ts else .text s :: ts := by
  cases ts with
  | nil => rfl
  | cons t ts =>
    cases t with
    | text u => exact absurd rfl (h u ts)
    | _ => rfl

/-- Prepending a text is prepending its end and then its beginning. -/
theorem prependToken_text_append (s t : String) (ts : List Token) :
    prependToken (.text (s ++ t)) ts = prependToken (.text s) (prependToken (.text t) ts) := by
  rcases startsText_or_startsApart ts with ⟨u, us, rfl⟩ | hapart
  · simp only [prependToken, String.append_assoc]
  · rw [prependToken_text hapart, prependToken_text hapart]
    by_cases ht : t = ""
    · rw [if_pos ht, ht, String.append_empty, prependToken_text hapart]
    · have hst : s ++ t ≠ "" := fun h => ht (String.append_eq_empty_iff.1 h).2
      rw [if_neg ht, if_neg hst]
      rfl

theorem prependToken_empty (ts : List Token) : prependToken (.text "") ts = ts := by
  rcases startsText_or_startsApart ts with ⟨u, us, rfl⟩ | hapart
  · rw [prependToken, String.empty_append]
  · rw [prependToken_text hapart, if_pos rfl]

/-- Merging and leaving out do not show in what is written token by token, if texts are written
character by character. -/
theorem flatMap_prependToken {f : Token → List Char} (hempty : f (.text "") = [])
    (happend : ∀ s t, f (.text (s ++ t)) = f (.text s) ++ f (.text t)) (t : Token)
    (ts : List Token) : (prependToken t ts).flatMap f = f t ++ ts.flatMap f := by
  cases t with
  | text s =>
    rcases startsText_or_startsApart ts with ⟨u, us, rfl⟩ | hapart
    · rw [prependToken, List.flatMap_cons, List.flatMap_cons, happend, List.append_assoc]
    · rw [prependToken_text hapart]
      split
      · rename_i hs
        rw [hs, hempty, List.nil_append]
      · exact List.flatMap_cons
  | _ => exact List.flatMap_cons

theorem literals_prependToken (t : Token) (ts : List Token) :
    literals (prependToken t ts) = t.literal ++ literals ts := by
  have happend : ∀ s t : String, Token.literal (.text (s ++ t)) =
      Token.literal (.text s) ++ Token.literal (.text t) := by
    intro s t
    simp only [Token.literal, String.toList_append]
  rw [literals_eq_flatMap, literals_eq_flatMap, flatMap_prependToken rfl happend]

theorem Normal.prepend_text {ts : List Token} (h : Normal ts) (s : String) :
    Normal (prependToken (.text s) ts) := by
  by_cases hs : s = ""
  · rw [hs, prependToken_empty]
    exact h
  · rcases startsText_or_startsApart ts with ⟨u, us, rfl⟩ | hapart
    · cases h with
      | text _ hapart hus =>
        have hsu : s ++ u ≠ "" := fun h => hs (String.append_eq_empty_iff.1 h).1
        exact .text hsu hapart hus
    · rw [prependToken_text hapart, if_neg hs]
      exact .text hs hapart h

theorem normal_normalize (ts : List Token) : Normal (normalize ts) := by
  induction ts using tokensInduction with
  | nil => exact .nil
  | text s ts ih => exact ih.prepend_text s
  | styled style inner ts hinner ih => exact .styled hinner ih
  | monospace s ts ih => exact .monospace ih
  | quote inner ts hinner ih => exact .quote hinner ih
  | lineBreak ts ih => exact .lineBreak ih

-- A text that is left out brings its neighbours together.
example : normalize [.text "a", .text "", .text "b"] = [.text "ab"] := by rfl

theorem Normal.normalize_eq {ts : List Token} (h : Normal ts) : normalize ts = ts := by
  induction h with
  | nil => rfl
  | @text s ts hs hapart _ ih =>
    rw [normalize, ih, Token.normal, prependToken_text hapart, if_neg hs]
  | styled _ _ hinner ih =>
    rw [normalize, ih, Token.normal, hinner]
    rfl
  | monospace _ ih =>
    rw [normalize, ih]
    rfl
  | quote _ _ hinner ih =>
    rw [normalize, ih, Token.normal, hinner]
    rfl
  | lineBreak _ ih =>
    rw [normalize, ih]
    rfl

theorem normalize_eq_self_iff {ts : List Token} : normalize ts = ts ↔ Normal ts := by
  constructor
  · intro h
    rw [← h]
    exact normal_normalize ts
  · exact Normal.normalize_eq

/-- A line break keeps the texts on its two sides apart. -/
theorem Normal.append_lineBreak {ts us : List Token} (hts : Normal ts) (hus : Normal us) :
    Normal (ts ++ .lineBreak :: us) := by
  induction hts with
  | nil => exact .lineBreak hus
  | @text s ts hs hapart _ ih =>
    refine .text hs ?_ ih
    cases ts with
    | nil => exact startsApart_cons (by simp) us
    | cons t ts =>
      intro u vs h
      exact hapart u ts (by rw [(List.cons.inj h).1])
  | styled hinner _ _ ih => exact .styled hinner ih
  | monospace _ ih => exact .monospace ih
  | quote hinner _ _ ih => exact .quote hinner ih
  | lineBreak _ ih => exact .lineBreak ih

end ChatMarkup
