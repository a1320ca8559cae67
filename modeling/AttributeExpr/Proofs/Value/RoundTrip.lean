import AttributeExpr.Proofs.Literal.Surrogate
import AttributeExpr.Proofs.Value.Literal
import AttributeExpr.Proofs.Value.WellFormed
/-!
Rendering and parsing. What is rendered of a value is a literal for exactly this value, so parsing
gives the value back with all of its spellings and with its parts in their order. A string is a text
of characters here; what is written for a text with surrogates is not parsed as that text.
-/
namespace AttributeExpr.Value

theorem renderItems_eq_map (items : List Value) : renderItems items = items.map render := by
  induction items with
  | nil => rfl
  | cons item items ih =>
    show render item :: renderItems items = _
    rw [ih, List.map_cons]

theorem renderEntries_eq_map (entries : List (String × Value)) :
    renderEntries entries =
      entries.map fun entry => StringBody.literal entry.1 ++ ": " ++ render entry.2 := by
  induction entries with
  | nil => rfl
  | cons entry entries ih => rw [renderEntries, ih, List.map_cons]

theorem toList_render_list (items : List Value) :
    (render (list items)).toList =
      '[' :: ([',', ' '].intercalate (items.map (·.render.toList)) ++ [']']) := by
  have h : render (list items) = "[" ++ ", ".intercalate (items.map render) ++ "]" := by
    rw [← renderItems_eq_map]
    rfl
  simp [h, String.toList_append, Function.comp_def]

theorem toList_render_map (entries : List (String × Value)) :
    (render (map entries)).toList =
      '\x7b' :: ([',', ' '].intercalate (entries.map fun entry =>
        (StringBody.literal entry.1).toList ++ ':' :: ' ' :: entry.2.render.toList) ++
          ['\x7d']) := by
  have h : render (map entries) = "\x7b" ++ ", ".intercalate (entries.map fun entry =>
      StringBody.literal entry.1 ++ ": " ++ render entry.2) ++ "\x7d" := by
    rw [← renderEntries_eq_map]
    rfl
  simp [h, String.toList_append, Function.comp_def]

/-- The text of a set whose elements are rendered as the given values are. -/
def renderSet (items : List Value) : List Char :=
  '<' :: '<' :: ([',', ' '].intercalate (items.map (·.render.toList)) ++ ['>', '>'])

theorem toList_renderSet {items : List Value} {texts : List String}
    (h : texts = items.map render) :
    ("<<" ++ ", ".intercalate texts ++ ">>").toList = renderSet items := by
  subst h
  simp [String.toList_append, Function.comp_def, renderSet]

theorem toList_render_numberSet (elements : List String) :
    (render (numberSet elements)).toList = renderSet (elements.map number) := by
  apply toList_renderSet
  rw [List.map_map]
  exact (List.map_id elements).symm

theorem toList_render_stringSet (elements : List String) :
    (render (stringSet elements)).toList = renderSet (elements.map string) := by
  apply toList_renderSet
  rw [List.map_map]
  rfl

theorem toList_render_binarySet (elements : List Bytes) :
    (render (binarySet elements)).toList = renderSet (elements.map binary) := by
  apply toList_renderSet
  rw [List.map_map]
  rfl

theorem isSeparator_space : ∀ c ∈ [' '], Lexer.isSeparator c = true :=
  List.forall_mem_singleton.mpr rfl

theorem isLiteral_number {text : String} (h : Numeral.Signed text.toList) :
    IsLiteral (render (number text)).toList (number text) :=
  .scalar (.number h) rfl

theorem isLiteral_string (text : String) :
    IsLiteral (render (string text)).toList (string text) :=
  .scalar (.stringLiteral text) rfl

theorem isLiteral_binary (bytes : Bytes) :
    IsLiteral (render (binary bytes)).toList (binary bytes) :=
  .scalar (.base64Literal bytes) rfl

theorem isLiteral_renderSet {items : List Value} {value : Value}
    (h : ∀ item ∈ items, IsLiteral item.render.toList item) (forms : IsSetOf items value) :
    IsLiteral (renderSet items) value := by
  have hset := IsLiteral.set (items.map fun item => (item.render.toList, item))
    (by simpa using forms.ne_nil) isSeparator_space (List.forall_mem_map.mpr h)
    (by simpa [Function.comp_def] using forms)
  simpa [renderSet, Function.comp_def] using hset

def renderEntry (entry : String × Value) : EntryText :=
  ⟨(StringBody.literal entry.1).toList, entry.1, ' ' :: entry.2.render.toList, entry.2⟩

/-- What is rendered of a value is a literal for it. -/
theorem WellFormed.isLiteral_render {value : Value}
    (h : value.WellFormed fun text => Numeral.Signed text.toList) :
    IsLiteral value.render.toList value := by
  induction h with
  | null =>
    show IsLiteral "null".toList Value.null
    exact .word (by decide) rfl
  | bool b =>
    cases b with
    | false =>
      show IsLiteral "false".toList (Value.bool false)
      exact .word (by decide) rfl
    | true =>
      show IsLiteral "true".toList (Value.bool true)
      exact .word (by decide) rfl
  | number h => exact isLiteral_number h
  | string text => exact isLiteral_string text
  | binary bytes => exact isLiteral_binary bytes
  | @list items _ ih =>
    rw [toList_render_list]
    by_cases hempty : items = []
    · subst hempty
      simpa using @IsLiteral.emptyList [] (by simp)
    · have hlist := IsLiteral.list (items.map fun item => (item.render.toList, item))
        (by simpa using hempty) isSeparator_space (List.forall_mem_map.mpr ih)
      simpa [Function.comp_def] using hlist
  | @map entries distinct _ ih =>
    rw [toList_render_map]
    by_cases hempty : entries = []
    · subst hempty
      simpa using @IsLiteral.emptyMap [] (by simp)
    · have keys : ∀ part ∈ entries.map renderEntry,
          Lexer.Spelling part.key [.string part.name] := by
        rw [List.forall_mem_map]
        intro entry _
        simp only [renderEntry]
        exact Lexer.Spelling.stringLiteral entry.1
      have values : ∀ part ∈ entries.map renderEntry, IsLiteral part.text part.value := by
        rw [List.forall_mem_map]
        intro entry hentry
        exact (ih entry hentry).layout_left isSeparator_space
      have hmap := IsLiteral.map _ (by simpa using hempty) isSeparator_space keys values
        (by simpa [Function.comp_def, renderEntry] using distinct)
      simpa [Function.comp_def, EntryText.spelled, EntryText.entry, renderEntry] using hmap
  | numberSet nonempty h distinct =>
    rw [toList_render_numberSet]
    exact isLiteral_renderSet (List.forall_mem_map.mpr fun text ht => isLiteral_number (h text ht))
      (.numbers nonempty distinct)
  | stringSet nonempty distinct =>
    rw [toList_render_stringSet]
    exact isLiteral_renderSet (List.forall_mem_map.mpr fun text _ => isLiteral_string text)
      (.strings nonempty distinct)
  | binarySet nonempty distinct =>
    rw [toList_render_binarySet]
    exact isLiteral_renderSet (List.forall_mem_map.mpr fun bytes _ => isLiteral_binary bytes)
      (.binaries nonempty distinct)

/-- A rendered value is parsed as that value, and rendering it again gives the same text. -/
theorem parse_render {value : Value}
    (h : value.WellFormed fun text => Numeral.Signed text.toList) :
    parse value.render = .ok value ∧ (parse value.render).map render = .ok value.render := by
  have hparse := h.isLiteral_render.parse_eq
  exact ⟨hparse, by rw [hparse]; rfl⟩

theorem parse_render_mixed :
    let value := map [("b64", numberSet ["-1.e3", "7"]), ("", list [binary [255], string "<<"])]
    parse value.render = .ok value ∧ (parse value.render).map render = .ok value.render := by
  have first : Numeral.Signed "-1.e3".toList :=
    .minus (@Numeral.Unsigned.parts ['1'] _ _ (by simp) (List.forall_mem_singleton.mpr rfl)
      (@Numeral.IsFraction.point [] (by simp))
      (@Numeral.IsExponent.power 'e' [] ['3'] (.inl rfl) (.inl rfl) (by simp)
        (List.forall_mem_singleton.mpr rfl)))
  have second : Numeral.Signed "7".toList :=
    .plain (@Numeral.Unsigned.parts ['7'] _ _ (by simp) (List.forall_mem_singleton.mpr rfl)
      .absent .absent)
  have numbers : DistinctNumbers ["-1.e3", "7"] := checkNumbers_nil_iff.mp rfl
  refine parse_render (.map (by decide) ?_)
  refine List.forall_mem_cons.mpr ⟨.numberSet (by simp) ?_ numbers, ?_⟩
  · simpa using And.intro first second
  · simp [WellFormed.list, WellFormed.binary, WellFormed.string]

/-- The literal of a text by its code points is parsed as the text exactly if no surrogate and
nothing else that is no character stands in it. -/
theorem parse_literalOf_iff (points : CodePoints) :
    (∃ text, parse (StringBody.literalOf points) = .ok (string text) ∧
      CodePoints.ofChars text.toList = points) ↔ ∀ n ∈ points, n.isValidChar := by
  constructor
  · rintro ⟨text, -, rfl⟩ n hn
    exact CodePoints.isValidChar_of_mem_ofChars hn
  · intro h
    obtain ⟨text, rfl⟩ : ∃ text : String, CodePoints.ofChars text.toList = points :=
      ⟨String.ofList (CodePoints.chars points), by
        rw [String.toList_ofList, CodePoints.ofChars_chars h]⟩
    exact ⟨text, (isLiteral_string text).parse_eq, rfl⟩

/-- The escape that is written for a surrogate is refused. -/
theorem parse_surrogate : parse (StringBody.literalOf [0xD800]) =
    .error (.refused (.lexical (.brokenSurrogatePair 1))) := by
  cbv

end AttributeExpr.Value
