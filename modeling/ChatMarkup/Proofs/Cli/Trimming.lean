import ChatMarkup.Proofs.Cli.Status
import ChatMarkup.Proofs.Message.Crossing
import Mathlib.Data.List.ModifyLast

/-! # The line end behind a message

Input is read without the line end behind it. What a line feed there would add is a line break. A carriage
return in front of it closes no span and completes no quote mark, so it would be one more character in the last
text of the last line, in its quote if the line is quoted. The spans and the quotes are those of the message
either way.
-/
namespace ChatMarkup

/-- A character that neither ends a line nor completes a quote mark, a fence or a style. -/
structure ClosesNothing (c : Char) : Prop where
  ne_newline : c ≠ '\n'
  ne_blank : c ≠ ' '
  ne_backtick : c ≠ '`'
  ne_delimiter : ∀ style : Style, c ≠ style.delimiter

theorem closesNothing_return : ClosesNothing '\r' where
  ne_newline := by decide
  ne_blank := by decide
  ne_backtick := by decide
  ne_delimiter style := by cases style <;> decide

/-- A text at the end of a line. It goes on with the last text of the line, and stays in the quote. -/
def extendLine (s : String) : List Token → List Token
  | [.quote inner] => [.quote (joinTokens inner [.text s])]
  | ts => joinTokens ts [.text s]

/-- A text at the end of the last line. -/
def extendLastLine (s : String) (ts : List Token) : List Token :=
  joinLines ((cutLines ts).modifyLast (extendLine s))

section Line
variable {c : Char} (hc : ClosesNothing c)
include hc

theorem inlineTokens_singleton : inlineTokens [c] = [.text (String.singleton c)] := by
  have hfence : skipFence? [c] = none := skipFence?_eq_none_iff.2 fun h => by
    simpa [fence] using h.length_le
  have hstyle : Style.ofDelimiter? c = none := by
    rw [Option.eq_none_iff_forall_ne_some]
    exact fun style h => hc.ne_delimiter style (Style.ofDelimiter?_eq_some_iff.1 h)
  have hnone : spanRecogniser.find? [c] = none := by
    simp [spanRecogniser, span?, hfence, hstyle]
  rw [inlineTokens, spanRecogniser.scan_of_none hnone, spanRecogniser.scan_nil,
    String.singleton_eq_ofList]
  rfl

/-- A span does not end in the character. -/
theorem InlineToken.source_ne_concat {t : Token} (ht : InlineToken t)
    (hne : ∀ content, t ≠ .text content) (s : List Char) : t.source ≠ s ++ [c] := by
  intro h
  cases ht with
  | text _ => exact hne _ rfl
  | @styled style content _ _ =>
    rw [Token.source, ← List.cons_append] at h
    have hlast := List.append_inj_right' h rfl
    exact hc.ne_delimiter style (List.singleton_inj.1 hlast).symm
  | @monospace content _ _ =>
    have hfence : fence = ['`', '`'] ++ ['`'] := rfl
    rw [Token.source, hfence, ← List.append_assoc] at h
    have hlast := List.append_inj_right' h rfl
    exact hc.ne_backtick (List.singleton_inj.1 hlast).symm

theorem not_cutsSpan_concat (s : List Char) : ¬ CutsSpan (inlineTokens (s ++ [c])) s.length := by
  rintro ⟨before, t, after, htokens, hne, hlt, hgt⟩
  have hsources := sources_inlineTokens (s ++ [c])
  rw [htokens, sources_append, sources, ← List.append_assoc] at hsources
  have htoken : InlineToken t := inlineToken_of_mem (s := s ++ [c]) (by simp [htokens])
  have hlength := congrArg List.length hsources
  simp only [List.length_append, List.length_singleton] at hlength
  -- Only the last character is behind the cut, so the span would have to end in it.
  have hafter : sources after = [] := List.length_eq_zero_iff.1 (by omega)
  rw [hafter, List.append_nil] at hsources
  have hdrop := congrArg (List.drop (sources before).length) hsources
  rw [List.drop_left, List.drop_append_of_le_length (by omega)] at hdrop
  exact htoken.source_ne_concat hc hne _ hdrop

theorem inlineTokens_concat (s : List Char) : inlineTokens (s ++ [c]) =
    joinTokens (inlineTokens s) [.text (String.singleton c)] := by
  rw [← inlineTokens_singleton hc, inlineTokens_append_iff]
  exact not_cutsSpan_concat hc s

theorem not_quoteMark_prefix_concat {line : List Char} (h : ¬ quoteMark <+: line) :
    ¬ quoteMark <+: line ++ [c] := by
  intro hprefix
  rcases List.prefix_concat_iff.1 hprefix with heq | hline
  · have hmark : quoteMark = ['>'] ++ [' '] := rfl
    have hlast := List.append_inj_right' (hmark.symm.trans heq) rfl
    exact hc.ne_blank (List.singleton_inj.1 hlast).symm
  · exact h hline

theorem lineTokens_concat (line : List Char) :
    lineTokens (line ++ [c]) = extendLine (String.singleton c) (lineTokens line) := by
  by_cases hquote : quoteMark <+: line
  · obtain ⟨quoted, rfl⟩ := hquote
    rw [List.append_assoc, lineTokens_of_quoted, lineTokens_of_quoted, inlineTokens_concat hc]
    rfl
  · rw [lineTokens_of_plain hquote, lineTokens_of_plain (not_quoteMark_prefix_concat hc hquote),
      inlineTokens_concat hc, extendLine]
    intro inner hinner
    have hmem : .quote inner ∈ inlineTokens line := by simp [hinner]
    cases inlineToken_of_mem hmem

end Line

section Message
variable {c : Char}

/-- Only the last line gets longer by a text without line feeds. -/
theorem exists_lines_append {t : List Char} (ht : '\n' ∉ t) (s : List Char) :
    ∃ before last, Text.lines s = before ++ [last] ∧ Text.lines (s ++ t) = before ++ [last ++ t] := by
  induction s with
  | nil => exact ⟨[], [], rfl, List.splitOn_eq_singleton ht⟩
  | cons d s ih =>
    obtain ⟨before, last, hs, hst⟩ := ih
    rw [Text.lines] at hs hst
    simp only [Text.lines, List.cons_append, List.splitOn_cons_eq_if_modifyHead, hs, hst]
    by_cases hd : d = '\n'
    · exact ⟨[] :: before, last, by simp [hd], by simp [hd]⟩
    · cases before with
      | nil => exact ⟨[], d :: last, by simp [hd], by simp [hd]⟩
      | cons line before => exact ⟨(d :: line) :: before, last, by simp [hd], by simp [hd]⟩

theorem cutLines_messageTokens (s : List Char) :
    cutLines (messageTokens s) = (Text.lines s).map lineTokens := by
  rw [messageTokens_eq_joinLines]
  refine cutLines_joinLines (mt List.map_eq_nil_iff.1 (List.splitOn_ne_nil '\n' s)) fun part hpart => ?_
  obtain ⟨line, hline, rfl⟩ := List.mem_map.1 hpart
  exact (lineCanonical_lineTokens (Text.not_mem_of_mem_splitOn '\n' s line hline)).lineBreak_not_mem

theorem messageTokens_concat (hc : ClosesNothing c) (s : List Char) :
    messageTokens (s ++ [c]) = extendLastLine (String.singleton c) (messageTokens s) := by
  have hnewline : '\n' ∉ [c] := by simpa using hc.ne_newline.symm
  obtain ⟨before, last, hs, hsc⟩ := exists_lines_append hnewline s
  rw [extendLastLine, cutLines_messageTokens, messageTokens_eq_joinLines, hs, hsc]
  simp only [List.map_append, List.map_cons, List.map_nil, List.modifyLast_concat,
    lineTokens_concat hc]

theorem messageTokens_concat_newline (s : List Char) :
    messageTokens (s ++ ['\n']) = messageTokens s ++ [.lineBreak] := by
  have hnil : messageTokens [] = [] := by
    rw [messageTokens_eq_joinLines]
    simp [Text.lines, lineTokens, unquote?, inlineTokens]
  rw [messageTokens_append_newline, hnil]

end Message

section Spans

/-- Text that is in no style. -/
def Token.isText : Token → Bool
  | .text _ => true
  | _ => false

/-- A quote without the texts directly inside it; any other token as it is. -/
def Token.withoutTexts : Token → Token
  | .quote inner => .quote (inner.filter fun t => !t.isText)
  | t => t

/-- The spans, quotes and line breaks of a message: all but the texts that are in no style. -/
def withoutTexts (ts : List Token) : List Token :=
  (ts.filter fun t => !t.isText).map Token.withoutTexts

theorem withoutTexts_append (ts us : List Token) :
    withoutTexts (ts ++ us) = withoutTexts ts ++ withoutTexts us := by
  simp [withoutTexts]

theorem withoutTexts_joinLines (parts : List (List Token)) :
    withoutTexts (joinLines parts) = joinLines (parts.map withoutTexts) := by
  induction parts with
  | nil => rfl
  | cons part parts ih =>
    cases parts with
    | nil => simp
    | cons next parts =>
      have hbreak : ∀ ts, withoutTexts (.lineBreak :: ts) = .lineBreak :: withoutTexts ts :=
        fun ts => rfl
      rw [joinLines_cons_cons, withoutTexts_append, hbreak, ih]
      simp

theorem filter_joinTokens_text (ts : List Token) (s : String) :
    (joinTokens ts [.text s]).filter (fun t => !t.isText) = ts.filter fun t => !t.isText := by
  generalize hus : [Token.text s] = us
  fun_induction joinTokens ts us with
  | case1 us => subst hus; rfl
  | case2 => cases hus; rfl
  | case3 t ts us _ ih => rw [List.filter_cons, List.filter_cons, ih hus]

theorem withoutTexts_extendLine (s : String) (ts : List Token) :
    withoutTexts (extendLine s ts) = withoutTexts ts := by
  fun_cases extendLine s ts with
  | case1 inner =>
    have hquote : ∀ us, withoutTexts [.quote us] = [.quote (us.filter fun t => !t.isText)] :=
      fun us => rfl
    rw [hquote, hquote, filter_joinTokens_text]
  | case2 => rw [withoutTexts, filter_joinTokens_text, withoutTexts]

theorem withoutTexts_extendLastLine (s : String) (ts : List Token) :
    withoutTexts (extendLastLine s ts) = withoutTexts ts := by
  rcases List.eq_nil_or_concat' (cutLines ts) with hnil | ⟨before, last, hparts⟩
  · exact absurd hnil (cutLines_ne_nil ts)
  · have hts := joinLines_cutLines ts
    rw [hparts] at hts
    rw [extendLastLine, hparts, List.modifyLast_concat, withoutTexts_joinLines, ← hts,
      withoutTexts_joinLines]
    simp only [List.map_append, List.map_cons, List.map_nil, withoutTexts_extendLine]

end Spans

namespace Cli

theorem ends_iff_reverse {d : Char} {s : List Char} :
    [d] <:+ s ↔ ∃ r, s.reverse = d :: r := by
  constructor
  · rintro ⟨r, rfl⟩
    exact ⟨r.reverse, by rw [List.reverse_append]; rfl⟩
  · rintro ⟨r, hr⟩
    exact ⟨r.reverse, by rw [← s.reverse_reverse, hr, List.reverse_cons]⟩

theorem trimLineEnd_of_not_suffix {s : List Char} (h : ¬ ['\n'] <:+ s) : trimLineEnd s = s := by
  unfold trimLineEnd
  split
  · rename_i r hr
    exact absurd (ends_iff_reverse.2 ⟨_, hr⟩) h
  · rename_i r _ hr
    exact absurd (ends_iff_reverse.2 ⟨_, hr⟩) h
  · rfl

theorem trimLineEnd_append_newline {s : List Char} (h : ¬ ['\r'] <:+ s) :
    trimLineEnd (s ++ ['\n']) = s := by
  have hrev : (s ++ ['\n']).reverse = '\n' :: s.reverse := by
    rw [List.reverse_append, List.reverse_singleton, List.singleton_append]
  rw [trimLineEnd, hrev]
  split
  · rename_i r hr
    exact absurd (ends_iff_reverse.2 ⟨r, (List.cons.inj hr).2⟩) h
  · rename_i r _ hr
    rw [← (List.cons.inj hr).2, s.reverse_reverse]
  · rename_i _ hne
    exact absurd rfl (hne s.reverse)

theorem trimLineEnd_append_return (s : List Char) : trimLineEnd (s ++ ['\r', '\n']) = s := by
  simp [trimLineEnd]

theorem render_of_newline {text : String} (h : ['\n'] <:+ text.toList)
    (hreturn : ¬ ['\r', '\n'] <:+ text.toList) :
    render text = render (trimmed text) ++ [.lineBreak] := by
  obtain ⟨s, hs⟩ := h
  have hend : ¬ ['\r'] <:+ s := by
    rintro ⟨u, rfl⟩
    exact hreturn ⟨u, by rw [← hs, List.append_assoc]; rfl⟩
  rw [render, render, trimmed, String.toList_ofList, ← hs, trimLineEnd_append_newline hend,
    messageTokens_concat_newline]

theorem render_of_return {text : String} (h : ['\r', '\n'] <:+ text.toList) :
    render text = extendLastLine "\r" (render (trimmed text)) ++ [.lineBreak] := by
  obtain ⟨s, hs⟩ := h
  have hsplit : s ++ ['\r', '\n'] = s ++ ['\r'] ++ ['\n'] := by simp
  rw [render, render, trimmed, String.toList_ofList, ← hs, trimLineEnd_append_return, hsplit,
    messageTokens_concat_newline, messageTokens_concat closesNothing_return]
  rfl

/-- Without its line end a message keeps all its spans and quotes. A line feed at its end would be one more line
break, and a carriage return in front of it one more character in the last text of the last line. -/
theorem render_trimmed (text : String) :
    (¬ ['\n'] <:+ text.toList → trimmed text = text) ∧
    (['\n'] <:+ text.toList → ¬ ['\r', '\n'] <:+ text.toList →
      render text = render (trimmed text) ++ [.lineBreak]) ∧
    (['\r', '\n'] <:+ text.toList →
      render text = extendLastLine "\r" (render (trimmed text)) ++ [.lineBreak]) ∧
    (['\n'] <:+ text.toList →
      withoutTexts (render text) = withoutTexts (render (trimmed text)) ++ [.lineBreak]) := by
  refine ⟨fun h => ?_, render_of_newline, render_of_return, fun h => ?_⟩
  · rw [trimmed, trimLineEnd_of_not_suffix h, String.ofList_toList]
  · have hbreak : withoutTexts [.lineBreak] = [.lineBreak] := rfl
    by_cases hreturn : ['\r', '\n'] <:+ text.toList
    · rw [render_of_return hreturn, withoutTexts_append, withoutTexts_extendLastLine, hbreak]
    · rw [render_of_newline h hreturn, withoutTexts_append, hbreak]

-- The carriage return stands in the quote, behind a fence that it does not close.
example : render "> ```a\r\n" = extendLastLine "\r" [.quote [.text "```a"]] ++ [.lineBreak] := by
  cbv

end Cli

end ChatMarkup
