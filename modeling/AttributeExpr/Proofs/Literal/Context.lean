import AttributeExpr.Literal.Outline
import AttributeExpr.Proofs.Name
/-!
Literals and quoted names in a longer text. Where one ends does not depend on the text behind it.
-/
namespace AttributeExpr

/-! The end of a literal. -/

theorem plainBody?_extend {quote : Char} {text body after : List Char}
    (h : plainBody? quote text = some (body, after)) (post : List Char) :
    plainBody? quote (text ++ post) = some (body, after ++ post) := by
  induction text generalizing body with
  | nil => cases h
  | cons c text ih =>
    rw [plainBody?] at h
    rw [List.cons_append, plainBody?]
    split_ifs at h ⊢
    · obtain ⟨rfl, rfl⟩ := Prod.mk.inj (Option.some.inj h)
      rfl
    · obtain ⟨⟨further, rest⟩, hfurther, heq⟩ := Option.map_eq_some_iff.mp h
      obtain ⟨rfl, rfl⟩ := Prod.mk.inj heq
      rw [ih hfurther]
      rfl

theorem isSome_plainBody? {quote : Char} {text : List Char} (h : quote ∈ text) :
    (plainBody? quote text).isSome := by
  induction text with
  | nil => contradiction
  | cons c text ih =>
    rw [plainBody?]
    split_ifs with hc
    · rfl
    · rw [Option.isSome_map]
      exact ih (List.mem_of_ne_of_mem (Ne.symm hc) h)

theorem mem_of_escapedBody? {quote : Char} {allowed : Char → Bool} {text : List Char}
    (h : (escapedBody? quote allowed text).isSome) : quote ∈ text := by
  fun_induction escapedBody? quote allowed text with
  | case1 => contradiction
  | case2 c rest _ ih =>
    rw [Option.isSome_map] at h
    simp [ih h]
  | case3 => contradiction
  | case4 => exact List.mem_cons_self
  | case5 c rest _ _ _ ih =>
    rw [Option.isSome_map] at h
    exact List.mem_cons_of_mem c (ih h)
  | case6 => contradiction

theorem escapedBody?_cons {quote c : Char} {allowed : Char → Bool} (h : c ≠ '\\')
    (rest : List Char) : escapedBody? quote allowed (c :: rest) =
      if c = quote then some ([], rest)
      else if allowed c then
        (escapedBody? quote allowed rest).map fun (body, after) => (c :: body, after)
      else none := by
  rw [escapedBody?.eq_def]
  split
  · contradiction
  · next heq => exact absurd (List.cons.inj heq).1 h
  · next heq =>
    obtain ⟨rfl, rfl⟩ := List.cons.inj heq
    rfl

/-- A body that ends has no need of the characters that it must not have. -/
theorem isSome_escapedBody? {quote : Char} {allowed : Char → Bool} (hquote : quote ≠ '\\')
    {text : List Char} (h : (escapedBody? quote allowed text).isSome) :
    (escapedBody? quote (fun _ => true) text).isSome := by
  fun_induction escapedBody? quote allowed text with
  | case1 => contradiction
  | case2 c rest _ ih =>
    rw [Option.isSome_map] at h
    simpa [escapedBody?] using ih h
  | case3 => contradiction
  | case4 rest hno =>
    rw [escapedBody?_cons hquote, if_pos rfl]
    rfl
  | case5 c rest hno hc _ ih =>
    rw [Option.isSome_map] at h
    by_cases hslash : c = '\\'
    · subst hslash
      cases rest with
      | nil => contradiction
      | cons d rest => exact (hno d rest rfl rfl).elim
    · rw [escapedBody?_cons hslash, if_neg hc, if_pos rfl, Option.isSome_map]
      exact ih h
  | case6 => contradiction

/-- Where the quote is closed, the body ends, or breaks off at a character that it must not have,
before anything behind the text. -/
theorem escapedBody?_extend {quote : Char} {allowed : Char → Bool} (hquote : quote ≠ '\\')
    {text : List Char} (closed : (escapedBody? quote (fun _ => true) text).isSome)
    (post : List Char) :
    escapedBody? quote allowed (text ++ post) =
      (escapedBody? quote allowed text).map (Prod.map id (· ++ post)) := by
  fun_induction escapedBody? quote allowed text with
  | case1 => contradiction
  | case2 c rest hc ih =>
    have hrest : (escapedBody? quote (fun _ => true) rest).isSome := by
      simpa [escapedBody?] using closed
    rw [List.cons_append, List.cons_append, escapedBody?, if_pos hc, ih hrest]
    cases escapedBody? quote allowed rest <;> rfl
  | case3 c rest hc =>
    rw [List.cons_append, List.cons_append, escapedBody?, if_neg hc]
    rfl
  | case4 rest hno =>
    rw [List.cons_append, escapedBody?_cons hquote, if_pos rfl]
    rfl
  | case5 c rest hno hc hallowed ih =>
    have hslash : c ≠ '\\' := by
      rintro rfl
      cases rest with
      | nil => simp [escapedBody?, hc] at closed
      | cons d rest => exact hno d rest rfl rfl
    rw [escapedBody?_cons hslash, if_neg hc, if_pos rfl, Option.isSome_map] at closed
    rw [List.cons_append, escapedBody?_cons hslash, if_neg hc, if_pos hallowed, ih closed]
    cases escapedBody? quote allowed rest <;> rfl
  | case6 c rest hno hc hallowed =>
    have hslash : c ≠ '\\' := by
      rintro rfl
      cases rest with
      | nil => simp [escapedBody?, hc] at closed
      | cons d rest => exact hno d rest rfl rfl
    rw [List.cons_append, escapedBody?_cons hslash, if_neg hc, if_neg hallowed]
    rfl

/-- A backtick behind a name is there because no name ends behind it. -/
theorem quotedName?_behind {text name rest : List Char}
    (h : quotedName? text = some (name, '\x60' :: rest)) : quotedName? rest = none := by
  fun_induction quotedName? text generalizing name with
  | case1 => cases h
  | case2 text name' after hsome ih =>
    obtain ⟨-, rfl⟩ := Prod.mk.inj (Option.some.inj h)
    exact ih hsome
  | case3 text hnone =>
    obtain ⟨-, heq⟩ := Prod.mk.inj (Option.some.inj h)
    obtain ⟨-, rfl⟩ := List.cons.inj heq
    exact hnone
  | case4 text hno =>
    obtain ⟨-, rfl⟩ := Prod.mk.inj (Option.some.inj h)
    exact (hno rest rfl).elim
  | case5 c text _ _ ih =>
    obtain ⟨⟨further, after⟩, hfurther, heq⟩ := Option.map_eq_some_iff.mp h
    obtain ⟨-, rfl⟩ := Prod.mk.inj heq
    exact ih hfurther

theorem quotedName?_extend {text name after post : List Char}
    (h : quotedName? text = some (name, after)) (hafter : after.head? ≠ some '\x60')
    (hpost : post.head? ≠ some '\x60') :
    quotedName? (text ++ post) = some (name, after ++ post) := by
  fun_induction quotedName? text generalizing name with
  | case1 => cases h
  | case2 rest name' after' hsome ih =>
    obtain ⟨rfl, rfl⟩ := Prod.mk.inj (Option.some.inj h)
    exact quotedName?_doubled (ih hsome)
  | case3 rest hnone =>
    obtain ⟨-, rfl⟩ := Prod.mk.inj (Option.some.inj h)
    exact absurd rfl hafter
  | case4 rest hno =>
    obtain ⟨rfl, rfl⟩ := Prod.mk.inj (Option.some.inj h)
    have hhead : (rest ++ post).head? ≠ some '\x60' := by
      cases rest with
      | nil => exact hpost
      | cons c rest => exact hafter
    rw [List.cons_append, quotedName?_end hhead]
  | case5 c rest hno hno' ih =>
    obtain ⟨⟨further, rest'⟩, hfurther, heq⟩ := Option.map_eq_some_iff.mp h
    obtain ⟨rfl, rfl⟩ := Prod.mk.inj heq
    rw [List.cons_append, quotedName?_plain hno', ih hfurther]
    rfl

/-! The literal without the text behind it. -/

theorem plainBody?_alone {quote : Char} {text body after : List Char}
    (h : plainBody? quote text = some (body, after)) :
    ∃ front, text = front ++ after ∧ plainBody? quote front = some (body, []) := by
  induction text generalizing body with
  | nil => cases h
  | cons c text ih =>
    rw [plainBody?] at h
    split_ifs at h with hc
    · obtain ⟨rfl, rfl⟩ := Prod.mk.inj (Option.some.inj h)
      exact ⟨[c], rfl, by rw [plainBody?, if_pos hc]⟩
    · obtain ⟨⟨further, rest⟩, hfurther, heq⟩ := Option.map_eq_some_iff.mp h
      obtain ⟨rfl, rfl⟩ := Prod.mk.inj heq
      obtain ⟨front, rfl, hfront⟩ := ih hfurther
      exact ⟨c :: front, rfl, by rw [plainBody?, if_neg hc, hfront]; rfl⟩

theorem escapedBody?_alone {quote : Char} {allowed : Char → Bool} {text body after : List Char}
    (hquote : quote ≠ '\\') (h : escapedBody? quote allowed text = some (body, after)) :
    ∃ front, text = front ++ after ∧ escapedBody? quote allowed front = some (body, []) := by
  fun_induction escapedBody? quote allowed text generalizing body with
  | case1 => cases h
  | case2 c rest hc ih =>
    obtain ⟨⟨further, rest'⟩, hfurther, heq⟩ := Option.map_eq_some_iff.mp h
    obtain ⟨rfl, rfl⟩ := Prod.mk.inj heq
    obtain ⟨front, rfl, hfront⟩ := ih hfurther
    exact ⟨'\\' :: c :: front, rfl, by rw [escapedBody?, if_pos hc, hfront]; rfl⟩
  | case3 => cases h
  | case4 rest hno =>
    obtain ⟨rfl, rfl⟩ := Prod.mk.inj (Option.some.inj h)
    exact ⟨[quote], rfl, by rw [escapedBody?_cons hquote, if_pos rfl]⟩
  | case5 c rest hno hc hallowed ih =>
    obtain ⟨⟨further, rest'⟩, hfurther, heq⟩ := Option.map_eq_some_iff.mp h
    obtain ⟨rfl, rfl⟩ := Prod.mk.inj heq
    obtain ⟨front, rfl, hfront⟩ := ih hfurther
    have hslash : c ≠ '\\' := by
      rintro rfl
      cases front with
      | nil => cases hfront
      | cons d front => exact hno d (front ++ rest') rfl rfl
    refine ⟨c :: front, rfl, ?_⟩
    rw [escapedBody?_cons hslash, if_neg hc, if_pos hallowed, hfront]
    rfl
  | case6 => cases h

theorem quotedName?_alone {text name after : List Char}
    (h : quotedName? text = some (name, after)) :
    ∃ front, text = front ++ after ∧ quotedName? front = some (name, []) := by
  fun_induction quotedName? text generalizing name with
  | case1 => cases h
  | case2 rest name' after' hsome ih =>
    obtain ⟨rfl, rfl⟩ := Prod.mk.inj (Option.some.inj h)
    obtain ⟨front, rfl, hfront⟩ := ih hsome
    exact ⟨'\x60' :: '\x60' :: front, rfl, quotedName?_doubled hfront⟩
  | case3 rest hnone =>
    obtain ⟨rfl, rfl⟩ := Prod.mk.inj (Option.some.inj h)
    exact ⟨['\x60'], rfl, rfl⟩
  | case4 rest hno =>
    obtain ⟨rfl, rfl⟩ := Prod.mk.inj (Option.some.inj h)
    exact ⟨['\x60'], rfl, rfl⟩
  | case5 c rest hno hno' ih =>
    obtain ⟨⟨further, rest'⟩, hfurther, heq⟩ := Option.map_eq_some_iff.mp h
    obtain ⟨rfl, rfl⟩ := Prod.mk.inj heq
    obtain ⟨front, rfl, hfront⟩ := ih hfurther
    exact ⟨c :: front, rfl, by rw [quotedName?_plain hno', hfront]; rfl⟩

/-! The text of a literal. -/

theorem escapedBody?_sound {quote : Char} {allowed : Char → Bool} {text body after : List Char}
    (h : escapedBody? quote allowed text = some (body, after)) :
    text = body ++ quote :: after := by
  fun_induction escapedBody? quote allowed text generalizing body with
  | case1 => cases h
  | case2 c rest _ ih =>
    obtain ⟨⟨further, rest'⟩, hfurther, heq⟩ := Option.map_eq_some_iff.mp h
    obtain ⟨rfl, rfl⟩ := Prod.mk.inj heq
    rw [ih hfurther]
    rfl
  | case3 => cases h
  | case4 =>
    obtain ⟨rfl, rfl⟩ := Prod.mk.inj (Option.some.inj h)
    rfl
  | case5 c rest _ _ _ ih =>
    obtain ⟨⟨further, rest'⟩, hfurther, heq⟩ := Option.map_eq_some_iff.mp h
    obtain ⟨rfl, rfl⟩ := Prod.mk.inj heq
    rw [ih hfurther]
    rfl
  | case6 => cases h

/-- A quoted name takes up more characters than it has. -/
theorem quotedName?_name_length {text name after : List Char}
    (h : quotedName? text = some (name, after)) : name.length + after.length < text.length := by
  fun_induction quotedName? text generalizing name with
  | case1 => cases h
  | case2 rest name' after' hsome ih =>
    obtain ⟨rfl, rfl⟩ := Prod.mk.inj (Option.some.inj h)
    have hshorter := ih hsome
    simp only [List.length_cons]
    omega
  | case3 rest =>
    obtain ⟨rfl, rfl⟩ := Prod.mk.inj (Option.some.inj h)
    simp
  | case4 rest =>
    obtain ⟨rfl, rfl⟩ := Prod.mk.inj (Option.some.inj h)
    simp
  | case5 c rest _ _ ih =>
    obtain ⟨⟨further, rest'⟩, hfurther, heq⟩ := Option.map_eq_some_iff.mp h
    obtain ⟨rfl, rfl⟩ := Prod.mk.inj heq
    have hshorter := ih hfurther
    simp only [List.length_cons]
    omega

end AttributeExpr
