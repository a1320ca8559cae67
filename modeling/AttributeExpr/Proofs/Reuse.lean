import AttributeExpr.Proofs.SortCondition.Policy
import AttributeExpr.Proofs.Token.Line
import AttributeExpr.Proofs.Token.Session
import AttributeExpr.Proofs.Update.Failure
import Mathlib
/-!
Using a lexer, and the parsers on top of it, again. Of the texts read before, only the count of
lines is left when a new text is taken. No reader of tokens looks at lines, so every text is read as
if it were the first, however far the texts before it have been read and whether or not they failed.
-/
namespace AttributeExpr

open Reading (NotAhead ahead_or_notAhead unlined unlined_fail unlined_map)

/-! Readers of paths. -/

namespace Path

theorem readSegments_unlined (s : Surroundings) (tokens : List Token) :
    readSegments s (tokens.map Token.unlined) = unlined (readSegments s tokens) := by
  fun_induction readSegments s tokens with
  | case1 => simp [readSegments, unlined_fail]
  | case2 _ _ token rest name hname ih => simp [readSegments, hname, ih, unlined_map]
  | case3 _ _ token rest hname =>
    simp only [List.map_cons, Token.unlined_mk, readSegments, Token.symbol_unlined, hname]
    rw [unlined_fail, ← List.map_cons, Reading.fail_unlined]
  | case4 _ _ text position line _ _ rest failure hlook =>
    simp only [List.map_cons, Token.unlined_mk, readSegments, Reading.lookAhead_unlined, hlook]
    rfl
  | case5 _ _ text position line _ _ rest hlook failure hindex =>
    simp only [List.map_cons, Token.unlined_mk, readSegments, Reading.lookAhead_unlined, hlook,
      hindex]
    rfl
  | case6 _ _ text position line _ _ rest hlook segment hindex ih =>
    simp [readSegments, hlook, hindex, ih, unlined_map]
  | case7 _ _ text position line rest hclose =>
    rw [unlined_fail, List.map_cons, List.map_cons, Token.unlined_mk, Token.unlined_mk,
      readSegments, Reading.fail_unlined]
    exact NotAhead.unlined hclose
  | case8 _ _ rest hclosed hnumber =>
    have hmapped (text : String) : NotAhead (.number text) (rest.map Token.unlined) :=
      NotAhead.unlined (hnumber text)
    rw [unlined_fail, List.map_cons, Token.unlined_mk, readSegments, Reading.fail_unlined]
    · exact fun text position line _ _ _ => hmapped text position line _
    · exact fun text position line rest => hmapped text position line rest
  | case9 rest hdot hdots _ _ hopen =>
    have hopened := NotAhead.unlined hopen
    have hnoDot : NotAhead (.mark .dot) rest := by
      rintro position line (_ | ⟨token, behind⟩) rfl
      · exact hdot position line rfl
      · exact hdots position line token behind rfl
    have hmapped := hnoDot.unlined
    rw [readSegments]
    · rfl
    · exact fun position line => hmapped position line []
    · exact fun position line token rest => hmapped position line (token :: rest)
    · exact fun position line _ _ _ _ _ _ => hopened position line _
    · exact fun position line _ _ _ _ => hopened position line _
    · exact hopened

theorem read_unlined (s : Surroundings) (tokens : List Token) :
    read s (tokens.map Token.unlined) = unlined (read s tokens) := by
  cases tokens with
  | nil => rw [List.map_nil, read, unlined_fail]
  | cons token rest =>
    simp only [List.map_cons, read, Token.symbol_unlined, readSegments_unlined]
    cases nameText? token.symbol with
    | some name => rw [unlined_map]
    | none => rw [unlined_fail, ← List.map_cons, Reading.fail_unlined]

end Path

/-! Readers of literals. -/

namespace Value

theorem build_unlined (s : Surroundings) (value : Except Failure Value) (rest : List Token) :
    build s value (rest.map Token.unlined) = unlined (build s value rest) := by
  unfold build
  rw [Reading.lookAhead_unlined]
  split
  · rfl
  · cases value <;> rfl

section

variable {s : Surroundings} {fuel : Nat} {token : Token} {tokens rest : List Token}

theorem readLiteral_square (h : token.symbol = .mark (.opening .square))
    (unclosed : NotAhead (.mark (.closing .square)) rest) :
    readLiteral s (fuel + 1) (token :: rest) =
      (readItems s .square fuel rest).map fun (items, rest) => (list items, rest) := by
  rw [readLiteral.eq_def]
  simp only [h]
  split
  · exact (unclosed _ _ _ rfl).elim
  · rfl

theorem readLiteral_brace (h : token.symbol = .mark (.opening .brace))
    (unclosed : NotAhead (.mark (.closing .brace)) rest) :
    readLiteral s (fuel + 1) (token :: rest) =
      match readEntries s fuel rest with
      | .error e => .error e
      | .ok (entries, rest) => build s (mapOf token.position entries) rest := by
  rw [readLiteral.eq_def]
  simp only [h]
  split
  · exact (unclosed _ _ _ rfl).elim
  · rfl

theorem readLiteral_double (h : token.symbol = .mark (.opening .set))
    (unclosed : NotAhead (.mark (.closing .set)) rest) :
    readLiteral s (fuel + 1) (token :: rest) =
      match readItems s .set fuel rest with
      | .error e => .error e
      | .ok (items, rest) => build s (setOf items) rest := by
  rw [readLiteral.eq_def]
  simp only [h]
  split
  · exact (unclosed _ _ _ rfl).elim
  · rfl

theorem readItems_single {bracket : Bracket} {item : Value}
    (h : readLiteral s fuel tokens = .ok (item, rest)) (ends : NotAhead (.mark .comma) rest) :
    readItems s bracket (fuel + 1) tokens =
      (Reading.expect s.fault (.closing bracket) rest).map ([item], ·) := by
  rw [readItems.eq_def]
  simp only [h]
  split
  · contradiction
  · next heq =>
    obtain ⟨-, rfl⟩ := Prod.mk.inj (Except.ok.inj heq)
    exact (ends _ _ _ rfl).elim
  · next heq =>
    obtain ⟨rfl, rfl⟩ := Prod.mk.inj (Except.ok.inj heq)
    rfl

theorem readEntries_single {key : String} {behind : List Token} {value : Value}
    (hkey : keyText? token.symbol = some key)
    (hcolon : Reading.expect s.fault .colon tokens = .ok behind)
    (h : readLiteral s fuel behind = .ok (value, rest)) (ends : NotAhead (.mark .comma) rest) :
    readEntries s (fuel + 1) (token :: tokens) =
      (Reading.expect s.fault (.closing .brace) rest).map ([(key, value)], ·) := by
  rw [readEntries.eq_def]
  simp only [hkey, hcolon, h]
  split
  · contradiction
  · next heq =>
    obtain ⟨-, rfl⟩ := Prod.mk.inj (Except.ok.inj heq)
    exact (ends _ _ _ rfl).elim
  · next heq =>
    obtain ⟨rfl, rfl⟩ := Prod.mk.inj (Except.ok.inj heq)
    rfl

/-- With this fuel, the readers do not look at lines. -/
structure ReadersUnlined (s : Surroundings) (fuel : Nat) : Prop where
  literal : ∀ tokens, readLiteral s fuel (tokens.map Token.unlined) =
    unlined (readLiteral s fuel tokens)
  items : ∀ bracket tokens, readItems s bracket fuel (tokens.map Token.unlined) =
    unlined (readItems s bracket fuel tokens)
  entries : ∀ tokens, readEntries s fuel (tokens.map Token.unlined) =
    unlined (readEntries s fuel tokens)

theorem expect_unlined_map {α : Type} (mark : Mark) (tokens : List Token) (a : α) :
    (Reading.expect s.fault mark (tokens.map Token.unlined)).map (a, ·) =
      unlined ((Reading.expect s.fault mark tokens).map (a, ·)) := by
  rw [Reading.expect_unlined]
  cases Reading.expect s.fault mark tokens <;> rfl

theorem readLiteral_unlined (h : ReadersUnlined s fuel) (tokens : List Token) :
    readLiteral s (fuel + 1) (tokens.map Token.unlined) =
      unlined (readLiteral s (fuel + 1) tokens) := by
  cases tokens with
  | nil =>
    cases hfault : s.fault <;>
      simp [readLiteral, Reading.fail, unlined, hfault, refuse, Except.map]
  | cons token rest =>
    obtain ⟨symbol, position, line⟩ := token
    rw [List.map_cons]
    cases symbol with
    | mark m =>
      cases m with
      | opening bracket =>
        cases bracket with
        | paren => rfl
        | square =>
          rcases ahead_or_notAhead (.mark (.closing .square)) rest with
            ⟨_, _, rest, rfl⟩ | unclosed
          · rfl
          · rw [readLiteral_square rfl unclosed, readLiteral_square rfl unclosed.unlined, h.items,
              unlined_map]
        | brace =>
          rcases ahead_or_notAhead (.mark (.closing .brace)) rest with
            ⟨_, _, rest, rfl⟩ | unclosed
          · rfl
          · rw [readLiteral_brace rfl unclosed, readLiteral_brace rfl unclosed.unlined, h.entries]
            cases readEntries s fuel rest with
            | error failure => rfl
            | ok result => exact build_unlined s _ result.2
        | set =>
          rcases ahead_or_notAhead (.mark (.closing .set)) rest with
            ⟨_, _, rest, rfl⟩ | unclosed
          · exact build_unlined s _ rest
          · rw [readLiteral_double rfl unclosed, readLiteral_double rfl unclosed.unlined, h.items]
            cases readItems s .set fuel rest with
            | error failure => rfl
            | ok result => exact build_unlined s _ result.2
      | _ => rfl
    | keyword word spelling => cases word <;> rfl
    | _ => rfl

theorem readItems_unlined (h : ReadersUnlined s fuel) (bracket : Bracket) (tokens : List Token) :
    readItems s bracket (fuel + 1) (tokens.map Token.unlined) =
      unlined (readItems s bracket (fuel + 1) tokens) := by
  have hliteral := h.literal tokens
  cases hread : readLiteral s fuel tokens with
  | error failure =>
    rw [hread] at hliteral
    rw [readItems, readItems, hread, hliteral]
    rfl
  | ok result =>
    obtain ⟨item, rest⟩ := result
    rw [hread] at hliteral
    rcases ahead_or_notAhead (.mark .comma) rest with ⟨_, _, rest, rfl⟩ | ends
    · rw [readItems, readItems, hread, hliteral]
      show (readItems s bracket fuel (rest.map Token.unlined)).map _ = _
      rw [h.items, unlined_map]
    · rw [readItems_single hread ends, readItems_single hliteral ends.unlined, expect_unlined_map]

theorem readEntries_unlined (h : ReadersUnlined s fuel) (tokens : List Token) :
    readEntries s (fuel + 1) (tokens.map Token.unlined) =
      unlined (readEntries s (fuel + 1) tokens) := by
  cases tokens with
  | nil =>
    rw [List.map_nil, readEntries, unlined_fail]
    simp
  | cons token rest =>
    rw [List.map_cons]
    cases hkey : keyText? token.symbol with
    | none =>
      simp only [readEntries, Token.symbol_unlined, hkey]
      rw [unlined_fail, ← List.map_cons, Reading.fail_unlined]
    | some key =>
      have hkey' : keyText? token.unlined.symbol = some key := hkey
      have hcolon := Reading.expect_unlined s.fault .colon rest
      cases hexpect : Reading.expect s.fault .colon rest with
      | error failure =>
        rw [hexpect] at hcolon
        simp only [readEntries, hkey, hkey', hexpect, hcolon]
        rfl
      | ok behind =>
        rw [hexpect] at hcolon
        have hliteral := h.literal behind
        cases hread : readLiteral s fuel behind with
        | error failure =>
          rw [hread] at hliteral
          simp only [readEntries, hkey, hkey', hexpect, hcolon, Except.map, hread, hliteral]
          rfl
        | ok result =>
          obtain ⟨value, rest⟩ := result
          rw [hread] at hliteral
          rcases ahead_or_notAhead (.mark .comma) rest with ⟨_, _, rest, rfl⟩ | ends
          · simp only [readEntries, hkey, hkey', hexpect, hcolon, Except.map, hread, hliteral]
            show (readEntries s fuel (rest.map Token.unlined)).map _ = _
            rw [h.entries, ← unlined_map]
            rfl
          · rw [readEntries_single hkey hexpect hread ends,
              readEntries_single hkey' hcolon hliteral ends.unlined, expect_unlined_map]

theorem readersUnlined (s : Surroundings) (fuel : Nat) : ReadersUnlined s fuel := by
  induction fuel with
  | zero =>
    refine ⟨fun tokens => ?_, fun bracket tokens => ?_, fun tokens => ?_⟩
    · rw [readLiteral, readLiteral, unlined_fail, Reading.fail_unlined]
    · rw [readItems, readItems, unlined_fail, Reading.fail_unlined]
    · rw [readEntries, readEntries, unlined_fail, Reading.fail_unlined]
  | succ fuel ih => exact ⟨readLiteral_unlined ih, readItems_unlined ih, readEntries_unlined ih⟩

theorem read_unlined (s : Surroundings) (tokens : List Token) :
    read s (tokens.map Token.unlined) = unlined (read s tokens) := by
  rw [read, read, fuelFor, List.length_map]
  exact (readersUnlined s _).literal tokens

end

end Value

/-! Readers of updates. -/

namespace Update

variable {s : Surroundings} {fuel : Nat}

/-- With this fuel, the readers of formulas do not look at lines. -/
structure ReadersUnlined (s : Surroundings) (fuel : Nat) : Prop where
  operand : ∀ tokens, readOperand s fuel (tokens.map Token.unlined) =
    unlined (readOperand s fuel tokens)
  formula : ∀ tokens, readFormula s fuel (tokens.map Token.unlined) =
    unlined (readFormula s fuel tokens)

/-- Reads an operand that is no call: a path or a literal. -/
def readPlain (s : Surroundings) (token : Token) (rest : List Token) : Reading Formula :=
  match Path.nameText? token.symbol with
  | some _ => (Path.read s (token :: rest)).map fun (path, rest) => (.path path, rest)
  | none => (Value.read s (token :: rest)).map fun (value, rest) => (.literal value, rest)

theorem readPlain_unlined (s : Surroundings) (token : Token) (rest : List Token) :
    readPlain s token.unlined (rest.map Token.unlined) = unlined (readPlain s token rest) := by
  unfold readPlain
  rw [← List.map_cons, Token.symbol_unlined]
  split
  · rw [Path.read_unlined, unlined_map]
  · rw [Value.read_unlined, unlined_map]

theorem readOperand_plain {token : Token} {rest : List Token}
    (h : ∀ name, token.symbol = .name name → NotAhead (.mark (.opening .paren)) rest)
    (fuel : Nat) : readOperand s fuel (token :: rest) = readPlain s token rest := by
  rw [readOperand.eq_def]
  split
  · next heq =>
    obtain ⟨rfl, rfl⟩ := List.cons.inj heq
    exact (h _ rfl _ _ _ rfl).elim
  · next heq =>
    obtain ⟨rfl, rfl⟩ := List.cons.inj heq
    rfl
  · next heq => cases heq

theorem readOperand_zero (token : Token) (rest : List Token) :
    readOperand s 0 (token :: rest) = readPlain s token rest := by
  rw [readOperand.eq_def]
  rfl

theorem readOperand_unlined (h : ReadersUnlined s fuel) (tokens : List Token) :
    readOperand s (fuel + 1) (tokens.map Token.unlined) =
      unlined (readOperand s (fuel + 1) tokens) := by
  cases tokens with
  | nil =>
    rw [List.map_nil, readOperand, unlined_fail]
  | cons token rest =>
    by_cases hcall : ∀ name, token.symbol = .name name → NotAhead (.mark (.opening .paren)) rest
    · rw [List.map_cons, readOperand_plain hcall, ← readPlain_unlined]
      exact @readOperand_plain s token.unlined _ (fun name hname => (hcall name hname).unlined) _
    · obtain ⟨symbol, position, line⟩ := token
      push Not at hcall
      obtain ⟨name, rfl, hparen⟩ := hcall
      obtain ⟨position', line', rest, rfl⟩ := (ahead_or_notAhead _ _).resolve_right hparen
      simp only [List.map_cons, Token.unlined_mk, readOperand]
      rw [h.formula]
      refine Reading.unlined_bind _ fun first after => ?_
      refine Reading.expect_unlined_bind _ _ _ fun behind => ?_
      dsimp only
      rw [h.formula]
      refine Reading.unlined_bind _ fun second close => ?_
      refine Reading.expect_unlined_bind _ _ _ fun last => ?_
      dsimp only
      rw [Reading.lookAhead_unlined]
      exact Reading.step_bind _ fun _ => Reading.step_bind _ fun _ => rfl

theorem readFormula_unlined (h : ReadersUnlined s fuel) (tokens : List Token) :
    readFormula s (fuel + 1) (tokens.map Token.unlined) =
      unlined (readFormula s (fuel + 1) tokens) := by
  have hoperand := h.operand tokens
  cases hread : readOperand s fuel tokens with
  | error failure =>
    rw [hread] at hoperand
    rw [readFormula, readFormula, hread, hoperand]
    rfl
  | ok result =>
    obtain ⟨left, rest⟩ := result
    rw [hread] at hoperand
    rw [readFormula, readFormula, hread, hoperand]
    cases rest with
    | nil => rfl
    | cons token rest =>
      have hmapped : unlined (.ok (left, token :: rest)) =
          .ok (left, token.unlined :: rest.map Token.unlined) := rfl
      rw [hmapped]
      dsimp only
      rw [Token.symbol_unlined, h.operand]
      cases arithmeticOp? token.symbol with
      | none => rfl
      | some op =>
        refine Reading.unlined_bind _ fun right rest => ?_
        dsimp only
        rw [Reading.lookAhead_unlined]
        exact Reading.step_bind _ fun _ => Reading.step_bind _ fun _ => rfl

theorem readersUnlined (s : Surroundings) (fuel : Nat) : ReadersUnlined s fuel := by
  induction fuel with
  | zero =>
    refine ⟨fun tokens => ?_, fun tokens => ?_⟩
    · cases tokens with
      | nil => rw [List.map_nil, readOperand, unlined_fail]
      | cons token rest =>
        rw [List.map_cons, readOperand_zero, readOperand_zero, readPlain_unlined]
    · rw [readFormula, readFormula, unlined_fail, Reading.fail_unlined]
  | succ fuel ih => exact ⟨readOperand_unlined ih, readFormula_unlined ih⟩

theorem readAssignment_unlined (s : Surroundings) (tokens : List Token) :
    readAssignment s (tokens.map Token.unlined) = unlined (readAssignment s tokens) := by
  rw [readAssignment, readAssignment, Path.read_unlined]
  refine Reading.unlined_bind _ fun target rest => ?_
  refine Reading.expect_unlined_bind _ _ _ fun behind => ?_
  rw [Value.fuelFor, List.length_map, (readersUnlined s _).formula]
  exact Reading.unlined_bind _ fun formula last => rfl

theorem readRemoval_unlined (s : Surroundings) (tokens : List Token) :
    readRemoval s (tokens.map Token.unlined) = unlined (readRemoval s tokens) := by
  rw [readRemoval, readRemoval, Path.read_unlined, unlined_map]

theorem readActions_single {readAction : List Token → Reading Action} {tokens rest : List Token}
    {action : Action} (h : readAction tokens = .ok (action, rest))
    (ends : NotAhead (.mark .comma) rest) :
    readActions s readAction (fuel + 1) tokens = .ok ([action], rest) := by
  rw [readActions]
  simp only [h]
  split
  · contradiction
  · next heq =>
    obtain ⟨-, rfl⟩ := Prod.mk.inj (Except.ok.inj heq)
    exact (ends _ _ _ rfl).elim
  · next heq =>
    obtain ⟨rfl, rfl⟩ := Prod.mk.inj (Except.ok.inj heq)
    rfl

theorem readActions_unlined {readAction : List Token → Reading Action}
    (h : ∀ tokens, readAction (tokens.map Token.unlined) = unlined (readAction tokens))
    (fuel : Nat) (tokens : List Token) :
    readActions s readAction fuel (tokens.map Token.unlined) =
      unlined (readActions s readAction fuel tokens) := by
  induction fuel generalizing tokens with
  | zero => rw [readActions, readActions, unlined_fail, Reading.fail_unlined]
  | succ fuel ih =>
    have haction := h tokens
    cases hread : readAction tokens with
    | error failure =>
      rw [hread] at haction
      rw [readActions, readActions, hread, haction]
      rfl
    | ok result =>
      obtain ⟨action, rest⟩ := result
      rw [hread] at haction
      rcases ahead_or_notAhead (.mark .comma) rest with ⟨_, _, rest, rfl⟩ | ends
      · rw [readActions, readActions, hread, haction]
        show (readActions s readAction fuel (rest.map Token.unlined)).map _ = _
        rw [ih, ← unlined_map]
      · rw [readActions_single hread ends, readActions_single haction ends.unlined]
        rfl

end Update

/-! Readers of conditions. -/

namespace SortCondition

variable (fault : Option ExpressionError)

theorem readSigned_unlined (negative : Bool) (tokens : List Token) :
    readSigned fault negative (tokens.map Token.unlined) =
      unlined (readSigned fault negative tokens) := by
  cases tokens with
  | nil => rw [List.map_nil, readSigned.eq_def, unlined_fail]
  | cons token rest =>
    obtain ⟨symbol, position, line⟩ := token
    cases symbol with
    | number text =>
      simp only [List.map_cons, Token.unlined_mk, readSigned, Reading.lookAhead_unlined]
      split
      · rfl
      · cases signed negative position text <;> rfl
    | _ => rfl

theorem readScalar_unlined (tokens : List Token) :
    readScalar fault (tokens.map Token.unlined) = unlined (readScalar fault tokens) := by
  cases tokens with
  | nil => rw [List.map_nil, readScalar.eq_def, unlined_fail]
  | cons token rest =>
    obtain ⟨symbol, position, line⟩ := token
    cases symbol with
    | mark m =>
      cases m with
      | minus => exact readSigned_unlined fault true rest
      | plus => exact readSigned_unlined fault false rest
      | _ => rfl
    | _ => rfl

theorem skipConj_unlined (tokens : List Token) :
    skipConj (tokens.map Token.unlined) = (skipConj tokens).map Token.unlined := by
  cases tokens with
  | nil => rfl
  | cons token rest =>
    obtain ⟨symbol, position, line⟩ := token
    cases symbol with
    | keyword word spelling => cases word <;> rfl
    | _ => rfl

theorem read_unlined (tokens : List Token) :
    read fault (tokens.map Token.unlined) = unlined (read fault tokens) := by
  cases tokens with
  | nil => rw [List.map_nil, read, unlined_fail]
  | cons token rest =>
    rw [List.map_cons, read, read, Token.symbol_unlined]
    split
    · rw [readScalar_unlined]
      exact Reading.unlined_bind _ fun value rest => rfl
    · rw [readScalar_unlined]
      refine Reading.unlined_bind _ fun low rest => ?_
      dsimp only
      rw [skipConj_unlined, readScalar_unlined]
      exact Reading.unlined_bind _ fun high rest => rfl
    · rw [readScalar_unlined]
      exact Reading.unlined_bind _ fun start rest => rfl
    · rw [← List.map_cons, readScalar_unlined]
      exact Reading.unlined_bind _ fun value rest => rfl

end SortCondition

/-! Parsers. -/

section

variable (scan : Scan)

theorem Value.ofScan_unlined : Value.ofScan scan.unlined = Value.ofScan scan := by
  unfold ofScan
  rw [← Reading.complete_unlined scan.fault (read _ scan.tokens), ← read_unlined]
  rfl

theorem Path.ofScan_unlined : Path.ofScan scan.unlined = Path.ofScan scan := by
  unfold ofScan
  rw [← Reading.complete_unlined scan.fault (read _ scan.tokens), ← read_unlined]
  rfl

theorem SortCondition.ofScan_unlined :
    SortCondition.ofScan scan.unlined = SortCondition.ofScan scan := by
  unfold ofScan
  rw [← Reading.complete_unlined scan.fault (read _ scan.tokens), ← read_unlined]
  rfl

theorem Update.assignmentsOf_unlined :
    Update.assignmentsOf scan.unlined = Update.assignmentsOf scan := by
  have hread (s : Surroundings) := @readActions_unlined s _ (readAssignment_unlined s)
    (scan.tokens.length + 1) scan.tokens
  unfold assignmentsOf
  simp only [Scan.unlined, List.length_map, hread, Reading.complete_unlined]

theorem Update.removalsOf_unlined :
    Update.removalsOf scan.unlined = Update.removalsOf scan := by
  have hread (s : Surroundings) := @readActions_unlined s _ (readRemoval_unlined s)
    (scan.tokens.length + 1) scan.tokens
  unfold removalsOf
  simp only [Scan.unlined, List.length_map, hread, Reading.complete_unlined]

end

namespace Lexer.Session

/-- Of the texts before it, a new text finds nothing left but the line. -/
theorem alike_input (session : Session) (text : String) :
    Alike (session.input text) ((fresh session.nested).input text) :=
  ⟨rfl, rfl, rfl, rfl, rfl⟩

variable {α : Type}

/-- A reading of a lexer that does not depend on lines. -/
def LineFree (read : Session → α) : Prop :=
  ∀ session other, Alike session other → read session = read other

theorem lineFree_answers (asked : Nat) :
    LineFree fun session => (session.answers asked).map unlinedAnswer :=
  fun _ _ h => h.answers asked

theorem lineFree_result :
    LineFree fun session => session.scan.result.map (List.map Token.unlined) :=
  fun session other h => by
    show session.scan.result.map _ = other.scan.result.map _
    rw [← Scan.result_unlined, h.scan, Scan.result_unlined]

theorem lineFree_ofScan {read : Scan → α} (h : ∀ scan, read scan.unlined = read scan) :
    LineFree fun session => read session.scan :=
  fun session other halike => by
    show read session.scan = read other.scan
    rw [← h, halike.scan, h]

/-- A reading that does not depend on lines takes every text as if it were the first, wherever the
readings before it have stopped. -/
theorem LineFree.readAll {read : Session → α} (h : LineFree read) (session : Session)
    (uses : List (String × Nat)) :
    session.readAll read uses = uses.map fun use => read ((fresh session.nested).input use.1) := by
  induction uses generalizing session with
  | nil => rfl
  | cons use uses ih =>
    obtain ⟨text, asked⟩ := use
    have hnested : ((session.input text).after asked).nested = session.nested :=
      nested_after (session.input text) asked
    rw [Session.readAll, ih, hnested, List.map_cons, h _ _ (alike_input session text)]

theorem scan_fresh (nested : Bool) (text : String) :
    ((fresh nested).input text).scan =
      if nested then scanNested text else Lexer.scan 1 text :=
  scan_input (fresh nested) text

theorem readAll_ofScan {read : Scan → α} (h : ∀ scan, read scan.unlined = read scan)
    (uses : List (String × Nat)) :
    (fresh true).readAll (fun session => read session.scan) uses =
      uses.map fun use => read (scanNested use.1) := by
  rw [(lineFree_ofScan h).readAll]
  simp [fresh_nested, scan_fresh]

/-- Lexers and parsers that are used again carry nothing over. Whatever texts come one after
another, and whether each is read to its end, to its first fault, or left at any token: to each
request, a lexer gives the answer, but for lines, that an unused one gives for the same text; it
finds the tokens or the fault that the text by itself has; and a parser on top of it makes of the
text what it makes of the text by itself. -/
theorem readAll_fresh (uses : List (String × Nat)) :
    (∀ nested asked,
      (fresh nested).readAll (fun session => (session.answers asked).map unlinedAnswer) uses =
        uses.map fun use =>
          (((fresh nested).input use.1).answers asked).map unlinedAnswer) ∧
    (∀ nested,
      (fresh nested).readAll
          (fun session => session.scan.result.map (List.map Token.unlined)) uses =
        uses.map fun use =>
          (if nested then scanNested use.1 else Lexer.scan 1 use.1).result.map
            (List.map Token.unlined)) ∧
    (fresh true).readAll (fun session => Value.ofScan session.scan) uses =
      uses.map (fun use => Value.parse use.1) ∧
    (fresh true).readAll (fun session => Path.ofScan session.scan) uses =
      uses.map (fun use => Path.parse use.1) ∧
    (fresh true).readAll (fun session => Update.assignmentsOf session.scan) uses =
      uses.map (fun use => Update.parseSet use.1) ∧
    (fresh true).readAll (fun session => Update.removalsOf session.scan) uses =
      uses.map (fun use => Update.parseRemove use.1) ∧
    (fresh true).readAll (fun session => SortCondition.ofScan session.scan) uses =
      uses.map fun use => SortCondition.parse use.1 := by
  refine ⟨fun nested asked => (lineFree_answers asked).readAll _ uses, fun nested => ?_,
    readAll_ofScan Value.ofScan_unlined uses, readAll_ofScan Path.ofScan_unlined uses,
    readAll_ofScan Update.assignmentsOf_unlined uses,
    readAll_ofScan Update.removalsOf_unlined uses,
    readAll_ofScan SortCondition.ofScan_unlined uses⟩
  rw [lineFree_result.readAll]
  simp only [fresh_nested, scan_fresh]

end Lexer.Session

end AttributeExpr
