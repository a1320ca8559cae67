/-!
The outlines of quoted literals and names: where each ends, without a look at what its inside means.
Whatever follows an outline is shorter than the text it was taken from.
-/
namespace AttributeExpr

/-- The body of a literal up to the next `quote`, and what follows the quote. -/
def plainBody? (quote : Char) : List Char → Option (List Char × List Char)
  | [] => none
  | c :: rest =>
    if c = quote then some ([], rest)
    else (plainBody? quote rest).map fun (body, after) => (c :: body, after)

/-- The same for a literal in which a backslash takes the next character along. No character
outside `allowed` may stand in the body. -/
def escapedBody? (quote : Char) (allowed : Char → Bool) :
    List Char → Option (List Char × List Char)
  | [] => none
  | '\\' :: c :: rest =>
    if allowed c then
      (escapedBody? quote allowed rest).map fun (body, after) => ('\\' :: c :: body, after)
    else none
  | c :: rest =>
    if c = quote then some ([], rest)
    else if allowed c then
      (escapedBody? quote allowed rest).map fun (body, after) => (c :: body, after)
    else none

/-- The name between backticks, whose opening backtick has been read. Two backticks in a row are
one backtick of the name, unless that leaves the name without an end. -/
def quotedName? : List Char → Option (List Char × List Char)
  | [] => none
  | '\x60' :: '\x60' :: rest =>
    match quotedName? rest with
    | some (name, after) => some ('\x60' :: name, after)
    | none => some ([], '\x60' :: rest)
  | '\x60' :: rest => some ([], rest)
  | c :: rest => (quotedName? rest).map fun (name, after) => (c :: name, after)

theorem plainBody?_length {quote : Char} {text body after : List Char}
    (h : plainBody? quote text = some (body, after)) : after.length < text.length := by
  induction text generalizing body with
  | nil => simp [plainBody?] at h
  | cons c rest ih =>
    simp only [plainBody?] at h
    split at h
    · simp at h; simp [← h.2]
    · simp only [Option.map_eq_some_iff, Prod.mk.injEq, Prod.exists] at h
      obtain ⟨_, _, h, _, rfl⟩ := h
      have := ih h
      simp; omega

theorem escapedBody?_length {quote : Char} {allowed : Char → Bool} {text body after : List Char}
    (h : escapedBody? quote allowed text = some (body, after)) : after.length < text.length := by
  fun_induction escapedBody? quote allowed text generalizing body with
  | case1 => simp at h
  | case2 c rest _ ih =>
    simp only [Option.map_eq_some_iff, Prod.mk.injEq, Prod.exists] at h
    obtain ⟨_, _, h, _, rfl⟩ := h
    have := ih h
    simp; omega
  | case3 => simp at h
  | case4 => simp at h; simp [← h.2]
  | case5 c rest _ _ _ ih =>
    simp only [Option.map_eq_some_iff, Prod.mk.injEq, Prod.exists] at h
    obtain ⟨_, _, h, _, rfl⟩ := h
    have := ih h
    simp; omega
  | case6 => simp at h

theorem quotedName?_length {text name after : List Char}
    (h : quotedName? text = some (name, after)) : after.length < text.length := by
  fun_induction quotedName? text generalizing name with
  | case1 => simp at h
  | case2 rest name' after' h' ih =>
    simp at h
    have := ih (h.2 ▸ h')
    simp; omega
  | case3 => simp at h; simp [← h.2]
  | case4 => simp at h; simp [← h.2]
  | case5 c rest _ _ ih =>
    simp only [Option.map_eq_some_iff, Prod.mk.injEq, Prod.exists] at h
    obtain ⟨_, _, h, _, rfl⟩ := h
    have := ih h
    simp; omega

end AttributeExpr
