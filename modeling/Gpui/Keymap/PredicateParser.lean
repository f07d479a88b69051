import Gpui.Keymap.Lexical

/-!
# Parsing predicates

A precedence-climbing parser.  Its calls are counted: the count only bounds their
depth, and `parse` starts with one that always suffices.
-/

namespace Gpui

inductive PredicateParseError where
  | unexpectedEnd
  | expectedClosing
  | unexpectedCharacter (next : Char)
  | operandsOfEqMustBeIdentifiers
  | operandsOfNeqMustBeIdentifiers
deriving DecidableEq, Repr

/-- `none` when the calls go too deep. -/
abbrev PredicateParser (α : Type) := ExceptT PredicateParseError Option α

namespace KeyBindingContextPredicate

def precedenceChild : Nat := 1
def precedenceOr : Nat := 2
def precedenceAnd : Nat := 3
def precedenceEq : Nat := 4
def precedenceNot : Nat := 5

/-- The table in the loop of `parse_expr`. -/
inductive Operator where
  | child
  | and
  | or
  | eq
  | neq
deriving DecidableEq, Repr

namespace Operator

def symbol : Operator → List Char
  | child => ['>']
  | and => ['&', '&']
  | or => ['|', '|']
  | eq => ['=', '=']
  | neq => ['!', '=']

def precedence : Operator → Nat
  | child => precedenceChild
  | and => precedenceAnd
  | or => precedenceOr
  | eq => precedenceEq
  | neq => precedenceEq

def construct : Operator → KeyBindingContextPredicate → KeyBindingContextPredicate →
    PredicateParser KeyBindingContextPredicate
  | child, left, right => pure (.descendant left right)
  | and, left, right => pure (.and left right)
  | or, left, right => pure (.or left right)
  | eq, .identifier left, .identifier right => pure (.equal left right)
  | eq, _, _ => throw .operandsOfEqMustBeIdentifiers
  | neq, .identifier left, .identifier right => pure (.notEqual left right)
  | neq, _, _ => throw .operandsOfNeqMustBeIdentifiers

def all : List Operator := [child, and, or, eq, neq]

/-- The operator that the loop goes on with. -/
def next (source : List Char) (minPrecedence : Nat) : Option Operator :=
  all.find? fun operator =>
    operator.symbol.isPrefixOf source && minPrecedence ≤ operator.precedence

end Operator

variable (alphanumeric : Alphanumeric)

mutual

def parseExpr : Nat → List Char → Nat →
    PredicateParser (KeyBindingContextPredicate × List Char)
  | 0, _, _ => (none : Option _)
  | calls + 1, source, minPrecedence => do
      let (predicate, rest) ← parsePrimary calls source
      parseOperators calls predicate rest minPrecedence

/-- The loop of `parse_expr`. -/
def parseOperators : Nat → KeyBindingContextPredicate → List Char → Nat →
    PredicateParser (KeyBindingContextPredicate × List Char)
  | 0, _, _, _ => (none : Option _)
  | calls + 1, predicate, source, minPrecedence =>
      match Operator.next source minPrecedence with
      | some operator => do
          let source := skipWhitespace (source.drop operator.symbol.length)
          let (right, rest) ← parseExpr calls source (operator.precedence + 1)
          let predicate ← operator.construct predicate right
          parseOperators calls predicate rest minPrecedence
      | none => pure (predicate, source)

def parsePrimary : Nat → List Char →
    PredicateParser (KeyBindingContextPredicate × List Char)
  | 0, _ => (none : Option _)
  | _ + 1, [] => throw .unexpectedEnd
  | calls + 1, next :: source =>
      if next = '(' then do
        let (predicate, rest) ← parseExpr calls (skipWhitespace source) 0
        match rest with
        | ')' :: stripped => pure (predicate, skipWhitespace stripped)
        | _ => throw .expectedClosing
      else if next = '!' then do
        let (predicate, rest) ← parseExpr calls (skipWhitespace source) precedenceNot
        pure (.not predicate, rest)
      else if isIdentifierChar alphanumeric next then
        let identifier := (next :: source).takeWhile fun c =>
          isIdentifierChar alphanumeric c || isVimOperatorChar c
        let rest := (next :: source).drop identifier.length
        pure (.identifier (String.ofList identifier), skipWhitespace rest)
      else if isVimOperatorChar next then
        pure (.identifier (String.singleton next), skipWhitespace source)
      else throw (.unexpectedCharacter next)

end

def parse (source : String) : PredicateParser KeyBindingContextPredicate := do
  let source := skipWhitespace source.toList
  let (predicate, rest) ← parseExpr alphanumeric (2 * source.length + 2) source 0
  match rest with
  | next :: _ => throw (.unexpectedCharacter next)
  | [] => pure predicate

/-! ## Runs that return a predicate -/

variable {alphanumeric}

private theorem bind_eq_pure_iff {α β : Type} {first : PredicateParser α}
    {next : α → PredicateParser β} {result : β} :
    (first >>= next) = pure result ↔ ∃ middle, first = pure middle ∧ next middle = pure result := by
  rcases first with _ | error | middle
  · constructor
    · nofun
    · rintro ⟨_, ⟨⟩, _⟩
  · constructor
    · nofun
    · rintro ⟨_, ⟨⟩, _⟩
  · constructor
    · exact fun run => ⟨middle, rfl, run⟩
    · rintro ⟨_, ⟨⟩, run⟩
      exact run

theorem throw_ne_pure {α : Type} {error : PredicateParseError} {result : α} :
    (throw error : PredicateParser α) ≠ pure result :=
  nofun

theorem pure_inj {α : Type} {first second : α} :
    (pure first : PredicateParser α) = pure second ↔ first = second := by
  constructor
  · intro same
    cases same
    rfl
  · rintro rfl
    rfl

/-- A call and its arguments. -/
inductive Call where
  | expr (source : List Char) (minPrecedence : Nat)
  | operators (predicate : KeyBindingContextPredicate) (source : List Char) (minPrecedence : Nat)
  | primary (source : List Char)

variable (alphanumeric) in
def Call.run (calls : Nat) : Call → PredicateParser (KeyBindingContextPredicate × List Char)
  | expr source minPrecedence => parseExpr alphanumeric calls source minPrecedence
  | operators predicate source minPrecedence =>
      parseOperators alphanumeric calls predicate source minPrecedence
  | primary source => parsePrimary alphanumeric calls source

variable (alphanumeric) in
/-- The calls that return a predicate and the rest of the source, however deep they go. -/
inductive Parses : Call → KeyBindingContextPredicate → List Char → Prop where
  | expr {source middle rest : List Char} {minPrecedence : Nat}
      {first predicate : KeyBindingContextPredicate}
      (operand : Parses (.primary source) first middle)
      (operators : Parses (.operators first middle minPrecedence) predicate rest) :
      Parses (.expr source minPrecedence) predicate rest
  | operator {source middle rest : List Char} {minPrecedence : Nat}
      {left right both predicate : KeyBindingContextPredicate} {operator : Operator}
      (next : Operator.next source minPrecedence = some operator)
      (operand : Parses (.expr (skipWhitespace (source.drop operator.symbol.length))
        (operator.precedence + 1)) right middle)
      (constructs : operator.construct left right = pure both)
      (operators : Parses (.operators both middle minPrecedence) predicate rest) :
      Parses (.operators left source minPrecedence) predicate rest
  | stop {predicate : KeyBindingContextPredicate} {source : List Char} {minPrecedence : Nat}
      (next : Operator.next source minPrecedence = none) :
      Parses (.operators predicate source minPrecedence) predicate source
  | paren {source stripped : List Char} {predicate : KeyBindingContextPredicate}
      (inner : Parses (.expr (skipWhitespace source) 0) predicate (')' :: stripped)) :
      Parses (.primary ('(' :: source)) predicate (skipWhitespace stripped)
  | not {source rest : List Char} {predicate : KeyBindingContextPredicate}
      (operand : Parses (.expr (skipWhitespace source) precedenceNot) predicate rest) :
      Parses (.primary ('!' :: source)) (.not predicate) rest
  | word {next : Char} {source : List Char}
      (identifier : isIdentifierChar alphanumeric next = true) :
      Parses (.primary (next :: source))
        (.identifier (String.ofList ((next :: source).takeWhile fun c =>
          isIdentifierChar alphanumeric c || isVimOperatorChar c)))
        (skipWhitespace ((next :: source).drop ((next :: source).takeWhile fun c =>
          isIdentifierChar alphanumeric c || isVimOperatorChar c).length))
  | vimOperator {next : Char} {source : List Char} (vim : isVimOperatorChar next = true) :
      Parses (.primary (next :: source)) (.identifier (String.singleton next))
        (skipWhitespace source)

/-- A character cannot begin both a symbol of the grammar and an identifier. -/
theorem ne_of_isIdentifierChar {next : Char} (identifier : isIdentifierChar alphanumeric next = true) :
    next ≠ '(' ∧ next ≠ '!' := by
  constructor
  · rintro rfl
    rw [isIdentifierChar_ascii alphanumeric (by decide)] at identifier
    exact absurd identifier (by decide)
  · rintro rfl
    rw [isIdentifierChar_ascii alphanumeric (by decide)] at identifier
    exact absurd identifier (by decide)

theorem Parses.of_run {calls : Nat} (call : Call) {predicate : KeyBindingContextPredicate}
    {rest : List Char} (runs : call.run alphanumeric calls = pure (predicate, rest)) :
    Parses alphanumeric call predicate rest := by
  induction calls generalizing call predicate rest with
  | zero => cases call <;> cases runs
  | succ calls ih =>
      cases call with
      | expr source minPrecedence =>
          simp only [Call.run, parseExpr, bind_eq_pure_iff] at runs
          rcases runs with ⟨⟨first, middle⟩, operand, operators⟩
          exact .expr (ih _ operand)
            (ih _ operators)
      | operators left source minPrecedence =>
          simp only [Call.run, parseOperators] at runs
          split at runs
          next operator next =>
            simp only [bind_eq_pure_iff] at runs
            rcases runs with ⟨⟨right, middle⟩, operand, both, constructs, operators⟩
            exact .operator next (ih _ operand) constructs
              (ih _ operators)
          next next =>
            rcases pure_inj.1 runs with ⟨⟩
            exact .stop next
      | primary source =>
          cases source with
          | nil => exact absurd runs throw_ne_pure
          | cons next source =>
              simp only [Call.run, parsePrimary] at runs
              split at runs
              next isOpening =>
                subst isOpening
                simp only [bind_eq_pure_iff] at runs
                rcases runs with ⟨⟨inner, middle⟩, operand, closes⟩
                split at closes
                next stripped isClosing =>
                  rcases isClosing with rfl
                  rcases pure_inj.1 closes with ⟨⟩
                  exact .paren (ih _ operand)
                next => exact absurd closes throw_ne_pure
              next =>
                split at runs
                next isBang =>
                  subst isBang
                  simp only [bind_eq_pure_iff] at runs
                  rcases runs with ⟨⟨inner, middle⟩, operand, returns⟩
                  rcases pure_inj.1 returns with ⟨⟩
                  exact .not (ih _ operand)
                next =>
                  split at runs
                  next identifier =>
                    rcases pure_inj.1 runs with ⟨⟩
                    exact .word identifier
                  next =>
                    split at runs
                    next vim =>
                      rcases pure_inj.1 runs with ⟨⟩
                      exact .vimOperator vim
                    next => exact absurd runs throw_ne_pure

private theorem bind_congr {α β : Type} {first first' : PredicateParser α}
    {next next' : α → PredicateParser β} (returns : (first >>= next) ≠ (none : Option _))
    (same : first ≠ (none : Option _) → first' = first)
    (continues : ∀ middle, next middle ≠ (none : Option _) → next' middle = next middle) :
    (first' >>= next') = (first >>= next) := by
  rcases first with _ | error | middle
  · exact absurd rfl returns
  · rw [same nofun]
    rfl
  · rw [same nofun]
    exact continues middle returns

/-- A run that ends does so with more calls too. -/
theorem Call.run_succ {calls : Nat} (call : Call)
    (ends : call.run alphanumeric calls ≠ (none : Option _)) :
    call.run alphanumeric (calls + 1) = call.run alphanumeric calls := by
  induction calls generalizing call with
  | zero => cases call <;> exact absurd rfl ends
  | succ calls ih =>
      have exprs {source minPrecedence}
          (ends : parseExpr alphanumeric calls source minPrecedence ≠ (none : Option _)) :
          parseExpr alphanumeric (calls + 1) source minPrecedence =
            parseExpr alphanumeric calls source minPrecedence := ih (.expr _ _) ends
      cases call with
      | expr source minPrecedence =>
          simp only [Call.run] at ends ⊢
          rw [parseExpr] at ends
          rw [parseExpr, parseExpr]
          exact bind_congr ends (ih (.primary _)) fun _ => ih (.operators _ _ _)
      | operators left source minPrecedence =>
          simp only [Call.run] at ends ⊢
          rw [parseOperators] at ends
          rw [parseOperators, parseOperators]
          cases next : Operator.next source minPrecedence with
          | none => rfl
          | some operator =>
              simp only [next] at ends ⊢
              refine bind_congr ends exprs fun middle ends => ?_
              exact bind_congr ends (fun _ => rfl) fun _ => ih (.operators _ _ _)
      | primary source =>
          cases source with
          | nil => rfl
          | cons next source =>
              simp only [Call.run] at ends ⊢
              rw [parsePrimary] at ends
              rw [parsePrimary, parsePrimary]
              split_ifs at ends ⊢
              · exact bind_congr ends exprs fun _ _ => rfl
              · exact bind_congr ends exprs fun _ _ => rfl
              · rfl
              · rfl
              · rfl

theorem Call.run_mono {calls more : Nat} (le : calls ≤ more) {call : Call}
    (ends : call.run alphanumeric calls ≠ (none : Option _)) :
    call.run alphanumeric more = call.run alphanumeric calls := by
  induction le with
  | refl => rfl
  | step _ ih => rw [run_succ call (ih ▸ ends), ih]

theorem Call.run_pure_mono {calls more : Nat} (le : calls ≤ more) {call : Call}
    {result : KeyBindingContextPredicate × List Char}
    (runs : call.run alphanumeric calls = pure result) :
    call.run alphanumeric more = pure result := by
  rw [run_mono le (runs ▸ nofun), runs]

/-- The parser returns what its runs allow. -/
theorem Parses.run {call : Call} {predicate : KeyBindingContextPredicate} {rest : List Char}
    (parses : Parses alphanumeric call predicate rest) :
    ∃ calls, call.run alphanumeric calls = pure (predicate, rest) := by
  induction parses with
  | expr _ _ operandRuns operatorsRun =>
      rcases operandRuns with ⟨first, operandRuns⟩
      rcases operatorsRun with ⟨second, operatorsRun⟩
      refine ⟨max first second + 1, ?_⟩
      rw [Call.run, parseExpr, bind_eq_pure_iff]
      exact ⟨_, Call.run_pure_mono (le_max_left _ _) operandRuns,
        Call.run_pure_mono (le_max_right _ _) operatorsRun⟩
  | operator next _ constructs _ operandRuns operatorsRun =>
      rcases operandRuns with ⟨first, operandRuns⟩
      rcases operatorsRun with ⟨second, operatorsRun⟩
      refine ⟨max first second + 1, ?_⟩
      rw [Call.run, parseOperators, next]
      simp only [bind_eq_pure_iff]
      exact ⟨_, Call.run_pure_mono (le_max_left _ _) operandRuns, _, constructs,
        Call.run_pure_mono (le_max_right _ _) operatorsRun⟩
  | stop next =>
      refine ⟨1, ?_⟩
      rw [Call.run, parseOperators, next]
  | paren _ innerRuns =>
      rcases innerRuns with ⟨calls, innerRuns⟩
      refine ⟨calls + 1, ?_⟩
      rw [Call.run, parsePrimary, if_pos rfl, bind_eq_pure_iff]
      exact ⟨_, innerRuns, rfl⟩
  | not _ operandRuns =>
      rcases operandRuns with ⟨calls, operandRuns⟩
      refine ⟨calls + 1, ?_⟩
      rw [Call.run, parsePrimary, if_neg (by decide), if_pos rfl, bind_eq_pure_iff]
      exact ⟨_, operandRuns, rfl⟩
  | word identifier =>
      rcases ne_of_isIdentifierChar identifier with ⟨notOpening, notBang⟩
      refine ⟨1, ?_⟩
      rw [Call.run, parsePrimary, if_neg notOpening, if_neg notBang, if_pos identifier]
  | @vimOperator next _ vim =>
      have apart : next ≠ '(' ∧ next ≠ '!' :=
        isVimOperatorChar_cases (motive := fun next => next ≠ '(' ∧ next ≠ '!') vim
          (by decide) (by decide) (by decide) (by decide) (by decide)
      refine ⟨1, ?_⟩
      rw [Call.run, parsePrimary, if_neg apart.1, if_neg apart.2,
        if_neg (by simp [not_isIdentifierChar_of_isVimOperatorChar alphanumeric vim]), if_pos vim]

/-! ## Termination -/

namespace Operator

theorem next_eq_some {source : List Char} {minPrecedence : Nat} {operator : Operator}
    (next : Operator.next source minPrecedence = some operator) :
    operator.symbol <+: source ∧ minPrecedence ≤ operator.precedence := by
  have matched := List.find?_some next
  rw [Bool.and_eq_true, List.isPrefixOf_iff_prefix, decide_eq_true_eq] at matched
  exact matched

theorem symbol_ne_nil (operator : Operator) : 0 < operator.symbol.length := by
  cases operator <;> decide

theorem length_after_symbol {source : List Char} {minPrecedence : Nat} {operator : Operator}
    (next : Operator.next source minPrecedence = some operator) :
    (skipWhitespace (source.drop operator.symbol.length)).length < source.length := by
  have within := (next_eq_some next).1.length_le
  have some := operator.symbol_ne_nil
  refine (length_skipWhitespace_le _).trans_lt ?_
  rw [List.length_drop]
  omega

end Operator

def Call.source : Call → List Char
  | expr source _ => source
  | operators _ source _ => source
  | primary source => source

/-- The loop may read nothing, the other calls read a character at least. -/
def Call.least : Call → Nat
  | expr _ _ => 1
  | operators _ _ _ => 0
  | primary _ => 1

/-- A call that returns has read something. -/
theorem Parses.shortens {call : Call} {predicate : KeyBindingContextPredicate} {rest : List Char}
    (parses : Parses alphanumeric call predicate rest) :
    rest.length + call.least ≤ call.source.length := by
  induction parses with
  | expr _ _ operandShortens operatorsShorten =>
      simp only [Call.least, Call.source] at *
      omega
  | operator next _ _ _ operandShortens operatorsShorten =>
      have shorter := Operator.length_after_symbol next
      simp only [Call.least, Call.source] at *
      omega
  | stop _ => exact le_rfl
  | @paren source stripped _ _ innerShortens =>
      have front := length_skipWhitespace_le source
      have back := length_skipWhitespace_le stripped
      simp only [Call.least, Call.source, List.length_cons] at *
      omega
  | @not source rest _ _ operandShortens =>
      have front := length_skipWhitespace_le source
      simp only [Call.least, Call.source, List.length_cons] at *
      omega
  | @word next source identifier =>
      simp only [Call.least, Call.source]
      rw [List.takeWhile_cons_of_pos (by rw [identifier, Bool.true_or]), List.length_cons,
        List.drop_succ_cons]
      refine Nat.succ_le_succ ((length_skipWhitespace_le _).trans ?_)
      rw [List.length_drop]
      exact Nat.sub_le _ _
  | vimOperator _ => exact Nat.succ_le_succ (length_skipWhitespace_le _)

/-- How many calls suffice. -/
def Call.depth (call : Call) : Nat :=
  2 * call.source.length + 1 + match call with
    | expr _ _ => 1
    | _ => 0

private theorem bind_ne_none {α β : Type} {first : PredicateParser α}
    {next : α → PredicateParser β} (starts : first ≠ (none : Option _))
    (continues : ∀ middle, first = pure middle → next middle ≠ (none : Option _)) :
    (first >>= next) ≠ (none : Option _) := by
  rcases first with _ | error | middle
  · exact absurd rfl starts
  · nofun
  · exact continues middle rfl

private theorem construct_ne_none (operator : Operator) (left right : KeyBindingContextPredicate) :
    operator.construct left right ≠ (none : Option _) := by
  cases operator <;> cases left <;> cases right <;> nofun

theorem Call.run_ne_none {calls : Nat} (call : Call) (enough : call.depth ≤ calls) :
    call.run alphanumeric calls ≠ (none : Option _) := by
  induction calls generalizing call with
  | zero => cases call <;> simp [depth] at enough
  | succ calls ih =>
      cases call with
      | expr source minPrecedence =>
          simp only [depth, Call.source] at enough
          rw [Call.run, parseExpr]
          refine bind_ne_none (ih (.primary source) ?_) ?_
          · simp only [depth, Call.source]
            omega
          · rintro ⟨first, middle⟩ operand
            have shorter := (Parses.of_run (.primary source) operand).shortens
            refine ih (.operators first middle minPrecedence) ?_
            simp only [depth, Call.source, Call.least] at *
            omega
      | operators left source minPrecedence =>
          simp only [depth, Call.source] at enough
          rw [Call.run, parseOperators]
          split
          next operator next =>
            have shorter := Operator.length_after_symbol next
            refine bind_ne_none (ih (.expr _ _) ?_) ?_
            · simp only [depth, Call.source]
              omega
            · rintro ⟨right, middle⟩ operand
              have stillShorter := (Parses.of_run (.expr _ _) operand).shortens
              refine bind_ne_none (construct_ne_none operator left right) fun both _ => ?_
              refine ih (.operators both middle minPrecedence) ?_
              simp only [depth, Call.source, Call.least] at *
              omega
          next => nofun
      | primary source =>
          cases source with
          | nil => nofun
          | cons next source =>
              have shorter := length_skipWhitespace_le source
              simp only [depth, Call.source, List.length_cons] at enough
              have inner (minPrecedence : Nat) :
                  parseExpr alphanumeric calls (skipWhitespace source) minPrecedence ≠
                    (none : Option _) := by
                refine ih (.expr _ _) ?_
                simp only [depth, Call.source]
                omega
              rw [Call.run, parsePrimary]
              split_ifs
              · refine bind_ne_none (inner 0) ?_
                rintro ⟨predicate, rest⟩ -
                simp only
                split <;> nofun
              · exact bind_ne_none (inner precedenceNot) fun _ _ => nofun
              · nofun
              · nofun
              · nofun

/-- Parsing returns a predicate when a run reads all of the source. -/
theorem parse_eq_pure_iff {source : String} {predicate : KeyBindingContextPredicate} :
    parse alphanumeric source = pure predicate ↔
      Parses alphanumeric (.expr (skipWhitespace source.toList) 0) predicate [] := by
  rw [parse, bind_eq_pure_iff]
  constructor
  · rintro ⟨⟨returned, rest⟩, runs, ends⟩
    cases rest with
    | nil =>
        rcases pure_inj.1 ends with ⟨⟩
        have returns : (Call.expr (skipWhitespace source.toList) 0).run alphanumeric
            (2 * (skipWhitespace source.toList).length + 2) = pure (predicate, []) := runs
        exact .of_run _ returns
    | cons next rest => exact absurd ends throw_ne_pure
  · intro parses
    rcases parses.run with ⟨calls, runs⟩
    -- the calls that `parse` allows suffice to end, and more calls change nothing
    have ends : (Call.expr (skipWhitespace source.toList) 0).run alphanumeric
        (2 * (skipWhitespace source.toList).length + 2) ≠ (none : Option _) :=
      Call.run_ne_none _ le_rfl
    have more := Call.run_mono (le_max_right calls _) ends
    rw [Call.run_pure_mono (le_max_left calls _) runs] at more
    exact ⟨(predicate, []), more.symm, rfl⟩

end KeyBindingContextPredicate

end Gpui
