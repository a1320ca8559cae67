import AttributeExpr.Proofs.Context
import AttributeExpr.Proofs.Path.Spelling
/-!
Reading written paths. Whatever the names of a path are, it is written so that it is read back. Only
positions can keep a path from being read back: those below zero and those with too many digits.
-/
namespace AttributeExpr.Path

/-- A text that spells the symbols of a path is parsed as that path. -/
theorem parse_of_spells {text : String} {symbols : List Symbol} {path : Path}
    (derives : Derives symbols path) (spells : Lexer.Spells false text.toList symbols) :
    parse text = .ok path := by
  obtain ⟨tokens, line, hscan, htokens⟩ :=
    scanNested_of_spells spells (Update.commasInside_path derives).wellNested
  let s : Surroundings := ⟨none, fun _ => false, mayFollowIndex⟩
  have hcontinues : Continues s := fun _ hsymbol => hsymbol
  have hends : Ends s [] := ⟨rfl, by simp⟩
  have hread := derives.read hcontinues hends htokens
  rw [List.append_nil] at hread
  rw [parse, hscan, ofScan, Reading.complete, hread]
  rfl

/-- The text of a path is parsed as the path itself just when all its positions can be read. -/
theorem parse_text_iff (name : String) (segments : List Segment) :
    parse (text (.name name :: segments)) = .ok (.name name :: segments) ↔
      ∀ segment ∈ segments, IsReadable segment := by
  constructor
  · intro h
    obtain ⟨symbols, -, derives⟩ := exists_spells_of_parse h
    cases derives with
    | path _ further => exact further.readable
  · intro h
    exact parse_of_spells (derives_symbols name h) (spelling_symbols name h).spells

example : text [.name "AND", .name "", .index 12, .name "a\x60b\n", .name "True"] =
    "AND.\x60\x60[12].\x60a\x60\x60b\n\x60.\x60True\x60" := by
  decide +kernel

end AttributeExpr.Path
