import AttributeExpr.Proofs.Token.Line
import AttributeExpr.Token.Session
import Mathlib
/-!
A lexer in use. What it hands out for a new text is the scan of that text, with or without the check
of delimiters, from the line that it has come to. That line shows in the lines of the tokens only:
to every request, lexers that differ in nothing else give the same answer and differ in nothing else
afterwards.
-/
namespace AttributeExpr

/-- Only the lexeme of a mark becomes a mark, so no line breaks are inside. -/
theorem Lexeme.lineBreaks_of_mark {lexeme : Lexeme} {position : Nat} {m : Mark}
    (h : lexeme.symbol position = .ok (.mark m)) : lexeme.lineBreaks = 0 := by
  cases lexeme with
  | word word =>
    simp only [symbol, wordSymbol] at h
    split at h
    · cases h
    · split at h <;> cases h
  | base64 body | bytes continuation body | string body =>
    simp only [symbol, Except.map] at h
    split at h <;> cases h
  | number | verbatim | quotedName => cases h
  | mark => rfl

namespace Lexer.Session

open Nesting (checkFrom)

variable {session behind : Session} {error : ExpressionError} {next : Option Token}
  {token : Token}

/-- What is left of the text, scanned without regard to delimiters. -/
def remaining (session : Session) : Scan :=
  scanFrom session.position session.line session.previous session.rest

/-! Separators do not matter. -/

theorem skip_kept (session : Session) (text : List Char) :
    (session.skip text).nested = session.nested ∧ (session.skip text).opened = session.opened ∧
      (session.skip text).previous = session.previous := by
  induction text generalizing session with
  | nil => exact ⟨rfl, rfl, rfl⟩
  | cons c text ih =>
    rw [skip]
    split
    · exact ih _
    · exact ⟨rfl, rfl, rfl⟩

theorem remaining_skip (session : Session) (text : List Char) :
    (session.skip text).remaining =
      scanFrom session.position session.line session.previous text := by
  induction text generalizing session with
  | nil => rfl
  | cons c text ih =>
    rw [skip]
    split
    · next hseparator => rw [ih, scanFrom, if_pos hseparator]
    · rfl

theorem skip_head (session : Session) (text : List Char) :
    ∀ c ∈ (session.skip text).rest.head?, isSeparator c = false := by
  induction text generalizing session with
  | nil => simp [skip]
  | cons c text ih =>
    rw [skip]
    split
    · exact ih _
    · next hseparator => simpa using hseparator

/-! One token. -/

theorem cutHere_kept (session : Session) : session.cutHere.2.nested = session.nested ∧
    session.cutHere.2.opened = session.opened ∧
    session.cutHere.2.previous = session.previous := by
  unfold cutHere
  split
  · exact ⟨rfl, rfl, rfl⟩
  · split
    · exact ⟨rfl, rfl, rfl⟩
    · dsimp only
      split <;> exact ⟨rfl, rfl, rfl⟩

theorem cut_kept (session : Session) : session.cut.2.nested = session.nested ∧
    session.cut.2.opened = session.opened := by
  obtain ⟨hnested, hopened, -⟩ := session.skip_kept session.rest
  obtain ⟨hnested', hopened', -⟩ := (session.skip session.rest).cutHere_kept
  exact ⟨hnested'.trans hnested, hopened'.trans hopened⟩

/-- Cutting off the token that starts right here is a step of the scan. -/
theorem remaining_of_cutHere (h : ∀ c ∈ session.rest.head?, isSeparator c = false) :
    session.remaining =
      match session.cutHere with
      | (.ok none, behind) => ⟨[], none, behind.line⟩
      | (.ok (some token), behind) =>
        (scanFrom behind.position behind.line (some token) behind.rest).push token
      | (.error error, behind) => ⟨[], some error, behind.line⟩ := by
  unfold remaining cutHere
  cases hrest : session.rest with
  | nil => rw [scanFrom]
  | cons c rest =>
    rw [scanFrom_cons (h c (by simp [hrest]))]
    dsimp only
    cases Lexeme.split? (session.previous.any (·.symbol.endsOperand)) (c :: rest) with
    | none => rfl
    | some found =>
      obtain ⟨lexeme, after⟩ := found
      dsimp only
      cases lexeme.symbol session.position <;> rfl

theorem remaining_of_cut (session : Session) :
    session.remaining =
      match session.cut with
      | (.ok none, behind) => ⟨[], none, behind.line⟩
      | (.ok (some token), behind) =>
        (scanFrom behind.position behind.line (some token) behind.rest).push token
      | (.error error, behind) => ⟨[], some error, behind.line⟩ := by
  rw [remaining, ← remaining_skip]
  exact remaining_of_cutHere (session.skip_head session.rest)

/-- A mark that has been cut off leaves the lexer on its line. -/
theorem line_of_cut {m : Mark} (h : session.cut = (.ok (some token), behind))
    (hmark : token.symbol = .mark m) : behind.line = token.line := by
  unfold cut cutHere at h
  split at h
  · cases h
  · split at h
    · cases h
    · dsimp only at h
      split at h
      · cases h
      · next symbol hsymbol =>
        cases h
        obtain rfl : symbol = .mark m := hmark
        simp [Lexeme.lineBreaks_of_mark hsymbol]

/-! The check of delimiters. -/

theorem checkFrom_cons (fault : Option ExpressionError) (line : Nat)
    (opened : List Nesting.Opening) (token : Token) (rest : List Token) :
    checkFrom fault line opened (token :: rest) =
      match track opened token with
      | .ok opened => (checkFrom fault line opened rest).push token
      | .error error => ⟨[], some error, token.line⟩ := by
  obtain ⟨symbol, position, tokenLine⟩ := token
  cases symbol with
  | mark m =>
    cases m with
    | closing bracket =>
      cases opened with
      | nil => rfl
      | cons innermost outer =>
        by_cases hbracket : innermost.bracket = bracket
        · simp [checkFrom, track, hbracket]
        · simp [checkFrom, track, hbracket, checkFrom.stray, track.stray]
    | _ => rfl
  | _ => rfl

theorem checkFrom_push (opened : List Nesting.Opening) (token : Token) (scan : Scan) :
    checkFrom (scan.push token).fault (scan.push token).line opened (scan.push token).tokens =
      match track opened token with
      | .ok opened => (checkFrom scan.fault scan.line opened scan.tokens).push token
      | .error error => ⟨[], some error, token.line⟩ :=
  checkFrom_cons scan.fault scan.line opened token scan.tokens

theorem checkFrom_nil (line : Nat) (opened : List Nesting.Opening) :
    checkFrom none line opened [] =
      match trackNext opened none with
      | .ok _ => ⟨[], none, line⟩
      | .error error => ⟨[], some error, line⟩ := by
  rw [checkFrom, trackNext]
  cases Nesting.atEnd none opened <;> rfl

/-- Only a mark can be out of place. -/
theorem mark_of_track {opened : List Nesting.Opening} (h : track opened token = .error error) :
    ∃ m, token.symbol = .mark m := by
  unfold track at h
  split at h
  · cases h
  · next hsymbol => exact ⟨_, hsymbol⟩
  · next hsymbol => exact ⟨_, hsymbol⟩
  · cases h

/-- What the check of delimiters makes of the rest of the text, if it is made. -/
def checked (session : Session) (scan : Scan) : Scan :=
  if session.nested then checkFrom scan.fault scan.line session.opened scan.tokens else scan

theorem token_eq_ok (h : session.token = (.ok next, behind)) :
    ∃ between opened, session.cut = (.ok next, between) ∧
      (if between.nested then trackNext between.opened next else .ok between.opened) = .ok opened ∧
      behind = { between with opened, previous := next.or between.previous } := by
  unfold token at h
  split at h
  · cases h
  · next cutNext between hcut =>
    split at h
    · cases h
    · next opened hopened =>
      cases h
      exact ⟨between, opened, hcut, hopened, rfl⟩

theorem token_eq_error (h : session.token = (.error error, behind)) :
    session.cut = (.error error, behind) ∨
      ∃ next, session.cut = (.ok next, behind) ∧ behind.nested = true ∧
        trackNext behind.opened next = .error error := by
  unfold token at h
  split at h
  · next hcut =>
    cases h
    exact .inl hcut
  · next cutNext between hcut =>
    split at h
    · next hopened =>
      cases h
      split_ifs at hopened with hnested
      exact .inr ⟨cutNext, hcut, hnested, hopened⟩
    · cases h

/-- What a lexer hands out is the scan of the text that is left. -/
theorem scan_eq (session : Session) : session.scan = session.checked session.remaining := by
  fun_induction Session.scan session with
  | case1 session next behind htoken ih =>
    obtain ⟨between, opened, hcut, hopened, rfl⟩ := token_eq_ok htoken
    have hkept := session.cut_kept
    have hremaining := session.remaining_of_cut
    rw [hcut] at hkept hremaining
    rw [ih, hremaining, checked, checked, ← hkept.1, ← hkept.2]
    dsimp only
    split_ifs at hopened ⊢
    · have htrack : track between.opened next = .ok opened := hopened
      rw [checkFrom_push, htrack]
      rfl
    · rfl
  | case2 session behind htoken =>
    obtain ⟨between, opened, hcut, hopened, rfl⟩ := token_eq_ok htoken
    have hkept := session.cut_kept
    have hremaining := session.remaining_of_cut
    rw [hcut] at hkept hremaining
    rw [hremaining, checked, ← hkept.1, ← hkept.2]
    dsimp only
    split_ifs at hopened ⊢
    · rw [checkFrom_nil, hopened]
    · rfl
  | case3 session error behind htoken =>
    have hkept := session.cut_kept
    have hremaining := session.remaining_of_cut
    rcases token_eq_error htoken with hcut | ⟨next, hcut, hnested, htrack⟩
    · rw [hcut] at hkept hremaining
      rw [hremaining, checked]
      split_ifs
      · rfl
      · rfl
    · rw [hcut] at hkept hremaining
      rw [hremaining, checked, ← hkept.1, ← hkept.2, if_pos hnested]
      cases next with
      | none =>
        dsimp only
        rw [checkFrom_nil, htrack]
      | some token =>
        have htrack : track behind.opened token = .error error := htrack
        obtain ⟨m, hmark⟩ := mark_of_track htrack
        dsimp only
        rw [checkFrom_push, htrack, line_of_cut hcut hmark]

/-- A new text is scanned as by a lexer that has not been used, but for the line it starts on. -/
theorem scan_input (session : Session) (text : String) :
    (session.input text).scan =
      if session.nested then Nesting.check (Lexer.scan session.line text)
      else Lexer.scan session.line text :=
  (session.input text).scan_eq

/-! A text that is read to its end. -/

theorem nested_token (session : Session) : session.token.2.nested = session.nested := by
  have hkept := session.cut_kept.1
  unfold token
  split
  · next hcut => rwa [hcut] at hkept
  · next hcut =>
    rw [hcut] at hkept
    split <;> exact hkept

@[simp] theorem nested_after (session : Session) (asked : Nat) :
    (session.after asked).nested = session.nested := by
  induction asked generalizing session with
  | zero => rfl
  | succ asked ih => rw [after, ih, nested_token]

/-- Behind the last token and the fault, the lexer is on the line that the scan has reached. -/
theorem line_after_scan (session : Session) :
    (session.after (session.scan.tokens.length + 1)).line = session.scan.line := by
  fun_induction Session.scan session with
  | case1 session next behind htoken ih =>
    rw [after, htoken]
    exact ih
  | case2 session behind htoken => rw [after, htoken]; rfl
  | case3 session error behind htoken => rw [after, htoken]; rfl

/-- Several texts are scanned one after another by a lexer that reads each of them to its end. -/
theorem scanAll_eq_readAll (session : Session) (texts : List String) :
    ∃ uses : List (String × Nat), uses.map (·.1) = texts ∧
      scanAll session.nested session.line texts = session.readAll Session.scan uses := by
  induction texts generalizing session with
  | nil => exact ⟨[], rfl, rfl⟩
  | cons text texts ih =>
    let started := session.input text
    let drained := started.after (started.scan.tokens.length + 1)
    obtain ⟨uses, huses, hscans⟩ := ih drained
    refine ⟨(text, started.scan.tokens.length + 1) :: uses, by rw [List.map_cons, huses], ?_⟩
    have hline : drained.line = started.scan.line := started.line_after_scan
    have hnested : drained.nested = session.nested := started.nested_after _
    rw [hline, hnested] at hscans
    rw [scanAll, readAll, ← hscans, ← scan_input]

/-! Lines. -/

/-- Two lexers that differ in lines only. -/
structure Alike (session other : Session) : Prop where
  nested : session.nested = other.nested
  rest : session.rest = other.rest
  position : session.position = other.position
  previous : session.previous.map Token.unlined = other.previous.map Token.unlined
  opened : session.opened = other.opened

/-- An answer with its line left out. -/
def unlinedAnswer (answer : Except ExpressionError (Option Token)) :
    Except ExpressionError (Option Token) :=
  answer.map (Option.map Token.unlined)

theorem unlinedAnswer_eq_error {answer : Except ExpressionError (Option Token)}
    (h : unlinedAnswer answer = .error error) : answer = .error error := by
  cases answer with
  | error => exact h
  | ok => cases h

theorem unlinedAnswer_eq_ok {answer : Except ExpressionError (Option Token)}
    (h : unlinedAnswer answer = .ok next) :
    ∃ next', answer = .ok next' ∧ next'.map Token.unlined = next := by
  cases answer with
  | error => cases h
  | ok next' => exact ⟨next', rfl, Except.ok.inj h⟩

/-- Two requests whose answers, and the lexers behind them, differ in lines only. -/
structure AlikeStep (step other : Except ExpressionError (Option Token) × Session) : Prop where
  answer : unlinedAnswer step.1 = unlinedAnswer other.1
  behind : Alike step.2 other.2

variable {other : Session}

theorem Alike.skip (h : Alike session other) (text : List Char) :
    Alike (session.skip text) (other.skip text) := by
  induction text generalizing session other with
  | nil => exact { h with rest := rfl }
  | cons c text ih =>
    unfold Session.skip
    split
    · exact ih { h with position := congrArg (· + 1) h.position }
    · exact { h with rest := rfl }

theorem Alike.cutHere (h : Alike session other) : AlikeStep session.cutHere other.cutHere := by
  have hends : session.previous.any (·.symbol.endsOperand) =
      other.previous.any (·.symbol.endsOperand) := by
    rw [← any_endsOperand_unlined, h.previous, any_endsOperand_unlined]
  have hstray (c : Char) : stray session.position session.previous c =
      stray other.position other.previous c := by
    rw [← stray_unlined, h.previous, h.position, stray_unlined]
  unfold Session.cutHere
  rw [← h.rest, ← h.position, ← hends]
  split
  · exact ⟨rfl, h⟩
  · next c rest _ =>
    split
    · rw [← h.position] at hstray
      exact ⟨by rw [hstray], h⟩
    · dsimp only
      split
      · exact ⟨rfl, { h with rest := rfl, position := rfl }⟩
      · exact ⟨rfl, { h with rest := rfl, position := rfl }⟩

theorem Alike.cut (h : Alike session other) : AlikeStep session.cut other.cut := by
  unfold Session.cut
  rw [← h.rest]
  exact (h.skip session.rest).cutHere

theorem trackNext_unlined (opened : List Nesting.Opening) (next : Option Token) :
    trackNext opened (next.map Token.unlined) = trackNext opened next := by
  cases next <;> rfl

/-- To a request, lexers that differ in lines only give the same answer, but for lines, and differ
in lines only afterwards. -/
theorem Alike.step (h : Alike session other) : AlikeStep session.token other.token := by
  have hcut := h.cut
  unfold Session.token
  generalize session.cut = cut at hcut
  generalize other.cut = cut' at hcut
  obtain ⟨answer, behind⟩ := cut
  obtain ⟨answer', behind'⟩ := cut'
  obtain ⟨hanswer, hbehind⟩ := hcut
  cases answer with
  | error error =>
    obtain rfl : answer' = .error error := unlinedAnswer_eq_error hanswer.symm
    exact ⟨rfl, hbehind⟩
  | ok next =>
    obtain ⟨next', rfl, hnext⟩ := unlinedAnswer_eq_ok hanswer.symm
    have hopened : (if behind.nested then trackNext behind.opened next else .ok behind.opened) =
        if behind'.nested then trackNext behind'.opened next' else .ok behind'.opened := by
      rw [← trackNext_unlined, ← hnext, trackNext_unlined, hbehind.nested, hbehind.opened]
    dsimp only
    rw [hopened]
    split
    · exact ⟨rfl, hbehind⟩
    · refine ⟨hanswer, { hbehind with opened := rfl, previous := ?_ }⟩
      show (next.or behind.previous).map _ = (next'.or behind'.previous).map _
      rw [Option.map_or, Option.map_or, hnext, hbehind.previous]

theorem Alike.answers (h : Alike session other) (asked : Nat) :
    (session.answers asked).map unlinedAnswer = (other.answers asked).map unlinedAnswer := by
  induction asked generalizing session other with
  | zero => rfl
  | succ asked ih =>
    rw [Session.answers, Session.answers, List.map_cons, List.map_cons, h.step.answer,
      ih h.step.behind]

theorem scan_step (session : Session) :
    session.scan =
      match session.token with
      | (.ok (some next), behind) => behind.scan.push next
      | (.ok none, behind) => ⟨[], none, behind.line⟩
      | (.error error, behind) => ⟨[], some error, behind.line⟩ := by
  rw [scan]
  split <;> simp [*]

theorem Alike.token_of_ok (h : Alike session other) (htoken : session.token = (.ok next, behind)) :
    ∃ next' behind', other.token = (.ok next', behind') ∧
      next'.map Token.unlined = next.map Token.unlined ∧ Alike behind behind' := by
  obtain ⟨hanswer, hbehind⟩ := h.step
  rw [htoken] at hanswer hbehind
  obtain ⟨next', hnext, hsame⟩ := unlinedAnswer_eq_ok hanswer.symm
  exact ⟨next', other.token.2, Prod.ext hnext rfl, hsame, hbehind⟩

theorem Alike.token_of_error (h : Alike session other)
    (htoken : session.token = (.error error, behind)) :
    ∃ behind', other.token = (.error error, behind') ∧ Alike behind behind' := by
  obtain ⟨hanswer, hbehind⟩ := h.step
  rw [htoken] at hanswer hbehind
  have herror := unlinedAnswer_eq_error hanswer.symm
  exact ⟨other.token.2, Prod.ext herror rfl, hbehind⟩

theorem Alike.scan (h : Alike session other) : session.scan.unlined = other.scan.unlined := by
  fun_induction Session.scan session generalizing other with
  | case1 session next behind htoken ih =>
    obtain ⟨_, behind', htoken', hsame, hbehind⟩ := h.token_of_ok htoken
    obtain ⟨next', rfl, hnext⟩ := Option.map_eq_some_iff.mp hsame
    rw [scan_step other, htoken', Scan.unlined_push, Scan.unlined_push, ih hbehind, hnext]
  | case2 session behind htoken =>
    obtain ⟨_, behind', htoken', hsame, -⟩ := h.token_of_ok htoken
    obtain rfl := Option.map_eq_none_iff.mp hsame
    rw [scan_step other, htoken']
    rfl
  | case3 session error behind htoken =>
    obtain ⟨behind', htoken', -⟩ := h.token_of_error htoken
    rw [scan_step other, htoken']
    rfl

end Lexer.Session

end AttributeExpr
