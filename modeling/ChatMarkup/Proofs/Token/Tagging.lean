import ChatMarkup.Cli.Run
import ChatMarkup.Proofs.Json.Pretty

/-! # Tokens read back from JSON

A token list is got back from the JSON that is printed for it: the text has exactly one value, which is an
array, and each item of the array is an object whose kind and value say which token it is. So different
token lists are never printed alike.
-/
namespace ChatMarkup

def Style.ofKind? (kind : String) : Option Style :=
  if kind = "bold" then some .bold
  else if kind = "italic" then some .italic
  else if kind = "strikethrough" then some .strikethrough
  else none

theorem Style.ofKind?_kind (style : Style) : ofKind? style.kind = some style := by
  cases style <;> rfl

/-- A token whose value is a text. -/
def textToken? (kind content : String) : Option Token :=
  if kind = "text" then some (.text content)
  else if kind = "monospace" then some (.monospace content)
  else none

/-- A token whose value is a list of tokens. -/
def listToken? (kind : String) (inner : List Token) : Option Token :=
  if kind = "quote" then some (.quote inner)
  else (Style.ofKind? kind).map fun style => .styled style inner

mutual
def taggedToken? : Json.Value → Option Token
  | .object [("kind", .string kind)] => if kind = "line_break" then some .lineBreak else none
  | .object [("kind", .string kind), ("value", .string content)] => textToken? kind content
  | .object [("kind", .string kind), ("value", .array items)] =>
    (taggedTokens? items).bind (listToken? kind)
  | _ => none
def taggedTokens? : List Json.Value → Option (List Token)
  | [] => some []
  | v :: vs => do return (← taggedToken? v) :: (← taggedTokens? vs)
end

theorem listToken?_kind (style : Style) (inner : List Token) :
    listToken? style.kind inner = some (.styled style inner) := by
  have hquote : style.kind ≠ "quote" := by cases style <;> decide
  rw [listToken?, if_neg hquote, Style.ofKind?_kind]
  rfl

theorem taggedTokens?_cons {v : Json.Value} {vs : List Json.Value} {t : Token} {ts : List Token}
    (hv : taggedToken? v = some t) (hvs : taggedTokens? vs = some ts) :
    taggedTokens? (v :: vs) = some (t :: ts) := by
  rw [taggedTokens?, hv, hvs]
  rfl

theorem taggedToken?_array (kind : String) (js : List Json) :
    taggedToken? (tagged kind (.array js)).value =
      (taggedTokens? (Json.itemValues js)).bind (listToken? kind) := rfl

theorem taggedTokens?_json (ts : List Token) :
    taggedTokens? (Json.itemValues (tokensJson ts)) = some ts := by
  induction ts using tokensInduction with
  | nil => rfl
  | text s ts ih => exact taggedTokens?_cons rfl ih
  | styled style inner ts hinner hts =>
    refine taggedTokens?_cons ?_ hts
    rw [Token.json, taggedToken?_array, hinner, Option.bind_some, listToken?_kind]
  | monospace s ts ih => exact taggedTokens?_cons rfl ih
  | quote inner ts hinner hts =>
    refine taggedTokens?_cons ?_ hts
    rw [Token.json, taggedToken?_array, hinner, Option.bind_some]
    rfl
  | lineBreak ts ih => exact taggedTokens?_cons rfl ih

/-- The text is a JSON text of one value only, an array, and its items are the tokens. -/
def SpellsTokens (text : String) (ts : List Token) : Prop :=
  ∃ items, (∀ v, Json.IsText text v ↔ v = .array items) ∧ taggedTokens? items = some ts

theorem SpellsTokens.unique {text : String} {ts us : List Token} (hts : SpellsTokens text ts)
    (hus : SpellsTokens text us) : ts = us := by
  obtain ⟨items, hitems, hts⟩ := hts
  obtain ⟨others, hothers, hus⟩ := hus
  have heq : Json.Value.array items = .array others := (hothers _).1 ((hitems _).2 rfl)
  cases heq
  exact Option.some.inj (hts.symm.trans hus)

theorem spellsTokens_pretty_append (ts : List Token) {blanks : String}
    (h : blanks.toList.all Json.isBlank = true) : SpellsTokens ((toJson ts).pretty ++ blanks) ts :=
  ⟨_, fun _ => Json.isText_pretty_append_iff h, taggedTokens?_json ts⟩

theorem spellsTokens_pretty (ts : List Token) : SpellsTokens (toJson ts).pretty ts := by
  have hspells : SpellsTokens ((toJson ts).pretty ++ "") ts := spellsTokens_pretty_append ts rfl
  rwa [String.append_empty] at hspells

theorem spellsTokens_answerRender (config : Config) (text : String) :
    SpellsTokens (Cli.answerRender .json config text).output (render text) := by
  have hline : (Cli.answerRender .json config text).output = (toJson (render text)).pretty ++ "\n" := by
    simp only [Cli.answerRender, Cli.asLines_singleton]
  rw [hline]
  exact spellsTokens_pretty_append _ rfl

/-- Every token list is got back from its JSON, whatever its texts hold, and so is that of a message from
the line that is printed for it; no two token lists are printed alike. -/
theorem json_recovers_tokens :
    (∀ ts, SpellsTokens (toJson ts).pretty ts) ∧
    (∀ ts us, (toJson ts).pretty = (toJson us).pretty → ts = us) ∧
    ∀ config text, SpellsTokens (Cli.answerRender .json config text).output (render text) := by
  refine ⟨spellsTokens_pretty, fun ts us heq => ?_, spellsTokens_answerRender⟩
  have hus := spellsTokens_pretty us
  rw [← heq] at hus
  exact (spellsTokens_pretty ts).unique hus

end ChatMarkup
