import ChatMarkup.Message
import ChatMarkup.Proofs.Text.Leftmost

/-! # The markup of a rendered message

Writing the tokens of a message back as markup gives the message itself: the pieces of a line lose no
character, the quote mark is put back, and the line breaks stand where the line feeds stood.
-/
namespace ChatMarkup

theorem source_token (a : Span) : a.token.source = a.source := by
  cases a with
  | delimited style content => simp [Span.token, Span.source, Token.source, sources]
  | fenced content => simp [Span.token, Span.source, Token.source]

theorem sources_map_pieceToken (ps : List (Text.Piece Span)) :
    sources (ps.map pieceToken) = spanRecogniser.sourceOf ps := by
  induction ps with
  | nil => rfl
  | cons p ps ih =>
    rw [List.map_cons, sources, ih]
    cases p with
    | plain cs => simp [pieceToken, Token.source]
    | found a =>
      rw [Text.Recogniser.sourceOf_found, pieceToken, source_token]
      rfl

theorem sources_inlineTokens (s : List Char) : sources (inlineTokens s) = s := by
  rw [inlineTokens, sources_map_pieceToken, Text.Recogniser.sourceOf_scan]

theorem sources_lineTokens (line : List Char) : sources (lineTokens line) = line := by
  unfold lineTokens
  split
  · rename_i quoted h
    rw [unquote?_eq_some_iff.1 h]
    simp [sources, Token.source, sources_inlineTokens]
  · exact sources_inlineTokens line

/-- Token lists put together with a line break between two of them. -/
def joinLines (parts : List (List Token)) : List Token := [Token.lineBreak].intercalate parts

@[simp] theorem joinLines_singleton (part : List Token) : joinLines [part] = part :=
  List.intercalate_singleton

@[simp] theorem joinLines_cons_cons (part next : List Token) (parts : List (List Token)) :
    joinLines (part :: next :: parts) = part ++ .lineBreak :: joinLines (next :: parts) := by
  rw [joinLines, List.intercalate_cons_cons, List.append_assoc]
  rfl

theorem mem_joinLines {t : Token} {parts : List (List Token)} (h : t ∈ joinLines parts) :
    t = .lineBreak ∨ ∃ part ∈ parts, t ∈ part := by
  induction parts with
  | nil => cases h
  | cons part parts ih =>
    cases parts with
    | nil => exact Or.inr ⟨part, List.mem_cons_self, by simpa using h⟩
    | cons next parts =>
      rw [joinLines_cons_cons, List.mem_append, List.mem_cons] at h
      rcases h with hpart | hbreak | hrest
      · exact Or.inr ⟨part, List.mem_cons_self, hpart⟩
      · exact Or.inl hbreak
      · rcases ih hrest with hbreak | ⟨p, hp, ht⟩
        · exact Or.inl hbreak
        · exact Or.inr ⟨p, List.mem_cons_of_mem part hp, ht⟩

theorem messageTokens_eq_joinLines (s : List Char) :
    messageTokens s = joinLines ((Text.lines s).map lineTokens) := rfl

theorem sources_joinLines (parts : List (List Token)) :
    sources (joinLines parts) = ['\n'].intercalate (parts.map sources) := by
  induction parts with
  | nil => rfl
  | cons part parts ih =>
    cases parts with
    | nil => simp [List.intercalate_singleton]
    | cons next parts =>
      rw [joinLines_cons_cons, sources_append, sources, ih, List.map_cons, List.map_cons,
        List.map_cons, Text.intercalate_singleton_cons_cons]
      rfl

theorem sources_messageTokens (s : List Char) : sources (messageTokens s) = s := by
  have hmap : ((Text.lines s).map lineTokens).map sources = Text.lines s := by
    rw [List.map_map]
    exact List.map_id'' sources_lineTokens _
  rw [messageTokens_eq_joinLines, sources_joinLines, hmap]
  exact List.intercalate_splitOn '\n'

/-- The tokens of a message are its markup again, so different messages have different tokens. -/
theorem markup_render :
    (∀ text, markup (render text) = text) ∧ Function.Injective render := by
  have hinverse : Function.LeftInverse markup render := by
    intro text
    rw [markup, render, sources_messageTokens, String.ofList_toList]
  exact ⟨hinverse, hinverse.injective⟩

end ChatMarkup
