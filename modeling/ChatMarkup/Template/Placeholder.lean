import ChatMarkup.Text.Scan
import ChatMarkup.Text.Split

/-! # Placeholders in templates

A placeholder stands between double braces. A strict one holds a name: one or more ASCII letters,
digits and underscores. A loose one holds anything without a closing brace, and is not empty.
-/
namespace ChatMarkup.Template

def isNameChar (c : Char) : Bool := c.isAlphanum || c = '_'

def openBraces : List Char := ['\x7b', '\x7b']
def closeBraces : List Char := ['\x7d', '\x7d']

def braced (content : List Char) : List Char := openBraces ++ (content ++ closeBraces)

def skipOpen? : List Char → Option (List Char)
  | '\x7b' :: '\x7b' :: s => some s
  | _ => none

def skipClose? : List Char → Option (List Char)
  | '\x7d' :: '\x7d' :: s => some s
  | _ => none

/-- A content that ends where `closed?` says so, with double braces on both sides. -/
def placeholder? (content? : List Char → Option (List Char × List Char)) (s : List Char) :
    Option (List Char × List Char) :=
  match skipOpen? s with
  | none => none
  | some s' =>
    match content? s' with
    | some (c :: content, behind) => (skipClose? behind).map fun rest => (c :: content, rest)
    | _ => none

/-- The longest run of name characters and what is behind it. -/
def name? (s : List Char) : Option (List Char × List Char) :=
  some (s.takeWhile isNameChar, s.dropWhile isNameChar)

/-- The text before the first closing brace and what is left from that brace on. -/
def looseContent? (s : List Char) : Option (List Char × List Char) :=
  (Text.splitAt? '\x7d' s).map fun (before, behind) => (before, '\x7d' :: behind)

theorem skipOpen?_eq_some_iff {s rest : List Char} :
    skipOpen? s = some rest ↔ s = openBraces ++ rest := by
  constructor
  · intro h
    unfold skipOpen? at h
    split at h
    · cases h; rfl
    · cases h
  · rintro rfl
    rfl

theorem skipClose?_eq_some_iff {s rest : List Char} :
    skipClose? s = some rest ↔ s = closeBraces ++ rest := by
  constructor
  · intro h
    unfold skipClose? at h
    split at h
    · cases h; rfl
    · cases h
  · rintro rfl
    rfl

theorem eq_append_of_name? {s content behind : List Char}
    (h : name? s = some (content, behind)) : s = content ++ behind := by
  cases h
  exact List.takeWhile_append_dropWhile.symm

theorem eq_append_of_looseContent? {s content behind : List Char}
    (h : looseContent? s = some (content, behind)) : s = content ++ behind := by
  obtain ⟨⟨before, rest⟩, hs, he⟩ := Option.map_eq_some_iff.1 h
  cases he
  exact (Text.splitAt?_eq_some_iff.1 hs).1

theorem eq_append_of_placeholder? {content? : List Char → Option (List Char × List Char)}
    (hc : ∀ {s content behind}, content? s = some (content, behind) → s = content ++ behind)
    {s content rest : List Char} (h : placeholder? content? s = some (content, rest)) :
    s = braced content ++ rest := by
  unfold placeholder? at h
  split at h
  · cases h
  · rename_i s' hs
    split at h
    · rename_i hcont
      obtain ⟨rest', hclose, he⟩ := Option.map_eq_some_iff.1 h
      cases he
      rw [skipOpen?_eq_some_iff.1 hs, hc hcont, skipClose?_eq_some_iff.1 hclose]
      simp [braced]
    · cases h

def strict : Text.Recogniser (List Char) where
  source := braced
  find? := placeholder? name?
  source_ne_nil := by simp [braced, openBraces]
  eq_append := eq_append_of_placeholder? eq_append_of_name?

def loose : Text.Recogniser (List Char) where
  source := braced
  find? := placeholder? looseContent?
  source_ne_nil := by simp [braced, openBraces]
  eq_append := eq_append_of_placeholder? eq_append_of_looseContent?

end ChatMarkup.Template
