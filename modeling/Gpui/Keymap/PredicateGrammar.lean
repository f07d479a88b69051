import Gpui.Keymap.PredicateParser

/-!
# The grammar of predicates

The tokens of a source, and the predicates that the grammar derives from them.  On a
source that spells tokens, the parser accepts what the grammar derives and nothing
else.
-/

namespace Gpui

namespace KeyBindingContextPredicate

/-! ## Tokens -/

/-- A single `>` is an operator or an identifier, by its place. -/
inductive Token where
  | opening
  | closing
  | bang
  | and
  | or
  | eq
  | neq
  | vim (operator : Char)
  | word (first : Char) (rest : List Char)
deriving DecidableEq, Repr

namespace Token

def first : Token → Char
  | opening => '('
  | closing => ')'
  | bang => '!'
  | and => '&'
  | or => '|'
  | eq => '='
  | neq => '!'
  | vim operator => operator
  | word first _ => first

def others : Token → List Char
  | and => ['&']
  | or => ['|']
  | eq => ['=']
  | neq => ['=']
  | word _ rest => rest
  | _ => []

def text (self : Token) : List Char :=
  self.first :: self.others

def operator : Token → Option Operator
  | and => some .and
  | or => some .or
  | eq => some .eq
  | neq => some .neq
  | vim '>' => some .child
  | _ => none

variable (alphanumeric : Alphanumeric)

def Valid : Token → Prop
  | vim operator => isVimOperatorChar operator = true
  | word first rest => isIdentifierChar alphanumeric first = true ∧
      ∀ c ∈ rest, (isIdentifierChar alphanumeric c || isVimOperatorChar c) = true
  | _ => True

/-- What follows a token directly does not make it a longer one. -/
def Apart (self : Token) (rest : List Char) : Prop :=
  match self with
  | word _ _ => ∀ c ∈ rest.head?, (isIdentifierChar alphanumeric c || isVimOperatorChar c) = false
  | bang => ∀ c ∈ rest.head?, c ≠ '='
  | _ => True

end Token

variable (alphanumeric : Alphanumeric)

/-- The tokens of a source that does not begin with whitespace. -/
inductive Spells : List Char → List Token → Prop where
  | nil : Spells [] []
  | cons {token : Token} {gap rest : List Char} {tokens : List Token}
      (valid : token.Valid alphanumeric) (blank : ∀ c ∈ gap, isWhitespace c = true)
      (apart : gap = [] → token.Apart alphanumeric rest) (back : Spells rest tokens) :
      Spells (token.text ++ (gap ++ rest)) (token :: tokens)

variable {alphanumeric}

theorem not_isIdentifierChar_of_ascii {c : Char} (ascii : c.toNat < 128)
    (other : (c.isAlphanum || c = '_' || c = '-') = false) :
    isIdentifierChar alphanumeric c = false := by
  rw [isIdentifierChar_ascii alphanumeric ascii, other]

namespace Token

theorem first_not_blank {token : Token} (valid : token.Valid alphanumeric) :
    isWhitespace token.first = false := by
  rw [Bool.eq_false_iff]
  intro blank
  cases token with
  | vim operator =>
      have notVim : isVimOperatorChar operator = false := not_isVimOperatorChar_of_isWhitespace blank
      rw [Valid, notVim] at valid
      cases valid
  | word first rest =>
      have notIdentifier : isIdentifierChar alphanumeric first = false :=
        not_isIdentifierChar_of_isWhitespace alphanumeric blank
      rw [Valid, notIdentifier] at valid
      exact absurd valid.1 (by decide)
  | _ => exact absurd blank (by decide)

/-- Whitespace after a token, or a token that keeps apart by itself, ends it. -/
theorem Apart.of_gap {token : Token} {gap rest : List Char}
    (blank : ∀ c ∈ gap, isWhitespace c = true) (apart : gap = [] → token.Apart alphanumeric rest) :
    token.Apart alphanumeric (gap ++ rest) := by
  cases gap with
  | nil => exact apart rfl
  | cons c gap =>
      have isBlank : isWhitespace c = true := blank c List.mem_cons_self
      cases token with
      | word first rest =>
          rintro other ⟨⟩
          rw [not_isIdentifierChar_of_isWhitespace alphanumeric isBlank,
            not_isVimOperatorChar_of_isWhitespace isBlank]
          rfl
      | bang =>
          rintro other ⟨⟩ rfl
          exact absurd isBlank (by decide)
      | _ => trivial

/-- A token that begins with neither an identifier nor an operator of vim. -/
theorem mem_symbols {token : Token} {c : Char} (valid : token.Valid alphanumeric)
    (begins : token.first = c) (ascii : c.toNat < 128)
    (other : (c.isAlphanum || c = '_' || c = '-') = false) (notVim : isVimOperatorChar c = false) :
    token ∈ [opening, closing, bang, and, or, eq, neq] := by
  cases token with
  | vim operator =>
      rcases begins with rfl
      have vim : isVimOperatorChar operator = true := valid
      rw [first] at notVim
      exact absurd (vim.symm.trans notVim) (by decide)
  | word first rest =>
      rcases begins with rfl
      have identifier : isIdentifierChar alphanumeric first = true := valid.1
      have notIdentifier : isIdentifierChar alphanumeric first = false :=
        not_isIdentifierChar_of_ascii ascii other
      exact absurd (identifier.symm.trans notIdentifier) (by decide)
  | _ => decide

theorem eq_opening {token : Token} (valid : token.Valid alphanumeric) (begins : token.first = '(') :
    token = opening := by
  have symbol := mem_symbols valid begins (by decide) (by decide) (by decide)
  fin_cases symbol <;> first | rfl | exact absurd begins (by decide)

theorem eq_closing {token : Token} (valid : token.Valid alphanumeric) (begins : token.first = ')') :
    token = closing := by
  have symbol := mem_symbols valid begins (by decide) (by decide) (by decide)
  fin_cases symbol <;> first | rfl | exact absurd begins (by decide)

theorem eq_bang_or_neq {token : Token} (valid : token.Valid alphanumeric)
    (begins : token.first = '!') : token = bang ∨ token = neq := by
  have symbol := mem_symbols valid begins (by decide) (by decide) (by decide)
  fin_cases symbol <;> first | decide | exact absurd begins (by decide)

theorem eq_word {token : Token} (valid : token.Valid alphanumeric)
    (begins : isIdentifierChar alphanumeric token.first = true) :
    ∃ rest, token = word token.first rest := by
  cases token with
  | word first rest => exact ⟨rest, rfl⟩
  | vim operator =>
      rw [first, not_isIdentifierChar_of_isVimOperatorChar alphanumeric valid] at begins
      cases begins
  | _ =>
      rw [not_isIdentifierChar_of_ascii (by decide) (by decide)] at begins
      cases begins

theorem eq_vim {token : Token} (valid : token.Valid alphanumeric)
    (begins : isVimOperatorChar token.first = true) : token = vim token.first := by
  cases token with
  | vim operator => rfl
  | word first rest =>
      have notIdentifier : isIdentifierChar alphanumeric first = false :=
        not_isIdentifierChar_of_isVimOperatorChar alphanumeric begins
      rw [Valid, notIdentifier] at valid
      exact absurd valid.1 (by decide)
  | _ => exact absurd begins (by decide)

end Token

theorem Spells.not_blank {source : List Char} {tokens : List Token}
    (spells : Spells alphanumeric source tokens) : ∀ c ∈ source.head?, isWhitespace c = false := by
  cases spells with
  | nil => nofun
  | cons valid _ _ _ =>
      rintro c ⟨⟩
      exact Token.first_not_blank valid

theorem Spells.skipWhitespace {gap rest : List Char} {tokens : List Token}
    (blank : ∀ c ∈ gap, isWhitespace c = true) (spells : Spells alphanumeric rest tokens) :
    Gpui.skipWhitespace (gap ++ rest) = rest :=
  skipWhitespace_append blank spells.not_blank

/-- A source that begins with a character, taken apart. -/
theorem Spells.uncons {c : Char} {source : List Char} {tokens : List Token}
    (spells : Spells alphanumeric (c :: source) tokens) :
    ∃ token gap rest more, tokens = token :: more ∧ c = token.first ∧
      source = token.others ++ (gap ++ rest) ∧ token.Valid alphanumeric ∧
      (∀ c ∈ gap, isWhitespace c = true) ∧ token.Apart alphanumeric (gap ++ rest) ∧
      Spells alphanumeric rest more := by
  generalize whole : c :: source = text at spells
  cases spells with
  | nil => cases whole
  | @cons token gap rest more valid blank apart back =>
      rcases List.cons.inj whole with ⟨rfl, rfl⟩
      exact ⟨token, gap, rest, more, rfl, rfl, rfl, valid, blank, .of_gap blank apart, back⟩

theorem Spells.eq_nil {tokens : List Token} (spells : Spells alphanumeric [] tokens) :
    tokens = [] := by
  generalize whole : ([] : List Char) = text at spells
  cases spells with
  | nil => rfl
  | cons _ _ _ _ => cases whole

theorem Spells.source_eq_nil {source : List Char} (spells : Spells alphanumeric source []) :
    source = [] := by
  cases spells
  rfl

/-! ## Operators -/

/-- The operator that a source goes on with. -/
def nextOperator (tokens : List Token) : Option Operator :=
  tokens.head?.bind Token.operator

theorem Operator.text_token {token : Token} {operator : Operator}
    (isOperator : token.operator = some operator) : token.text = operator.symbol := by
  cases token with
  | vim c =>
      by_cases isChild : c = '>'
      · rcases isChild with rfl
        cases isOperator
        rfl
      · simp [Token.operator, isChild] at isOperator
  | opening => cases isOperator
  | closing => cases isOperator
  | bang => cases isOperator
  | word first rest => cases isOperator
  | and => cases isOperator; rfl
  | or => cases isOperator; rfl
  | eq => cases isOperator; rfl
  | neq => cases isOperator; rfl

theorem Operator.next_of_prefix {source : List Char} {operator : Operator}
    (begins : operator.symbol <+: source) (minPrecedence : Nat) :
    Operator.next source minPrecedence =
      (some operator).filter fun operator => minPrecedence ≤ operator.precedence := by
  rcases begins with ⟨rest, rfl⟩
  by_cases within : minPrecedence ≤ operator.precedence <;>
    cases operator <;>
    simp [Operator.next, Operator.all, Operator.symbol, Option.filter, within]

theorem Operator.next_eq_none {source : List Char}
    (begins : ∀ operator : Operator, ¬ operator.symbol <+: source) (minPrecedence : Nat) :
    Operator.next source minPrecedence = none := by
  rw [Operator.next, List.find?_eq_none]
  intro operator _
  rw [Bool.and_eq_true, List.isPrefixOf_iff_prefix, not_and]
  exact fun isPrefix => absurd isPrefix (begins operator)

/-- Only the tokens of operators begin with their symbols. -/
theorem Token.not_prefix {token : Token} {after : List Char} (valid : token.Valid alphanumeric)
    (apart : token.Apart alphanumeric after) (noOperator : token.operator = none)
    (operator : Operator) : ¬ operator.symbol <+: token.text ++ after := by
  rintro ⟨rest, same⟩
  cases operator with
  | child =>
      have begins : token.first = '>' := (List.cons.inj same).1.symm
      have isVim := eq_vim valid (begins ▸ by decide)
      rw [begins] at isVim
      rw [isVim] at noOperator
      cases noOperator
  | neq =>
      rcases List.cons.inj same with ⟨begins, others⟩
      rcases eq_bang_or_neq valid begins.symm with rfl | rfl
      · have follows : '=' :: rest = after := others
        exact apart '=' (follows ▸ rfl) rfl
      · cases noOperator
  | _ =>
      have begins := (List.cons.inj same).1.symm
      have symbol := mem_symbols valid begins (by decide) (by decide) (by decide)
      fin_cases symbol <;> first | exact absurd begins (by decide) | cases noOperator

/-- The loop looks at the next token. -/
theorem Spells.next {source : List Char} {tokens : List Token}
    (spells : Spells alphanumeric source tokens) (minPrecedence : Nat) :
    Operator.next source minPrecedence =
      (nextOperator tokens).filter fun operator => minPrecedence ≤ operator.precedence := by
  cases spells with
  | nil =>
      refine Operator.next_eq_none (fun operator isPrefix => ?_) minPrecedence
      have noSymbol := List.prefix_nil.mp isPrefix
      cases operator <;> cases noSymbol
  | @cons token gap rest more valid blank apart back =>
      have apart := Token.Apart.of_gap blank apart
      cases isOperator : token.operator with
      | none =>
          rw [Operator.next_eq_none (Token.not_prefix valid apart isOperator)]
          simp [nextOperator, isOperator]
      | some operator =>
          have begins : operator.symbol <+: token.text ++ (gap ++ rest) :=
            Operator.text_token isOperator ▸ List.prefix_append _ _
          rw [Operator.next_of_prefix begins]
          simp [nextOperator, isOperator]

/-- Behind the operator, the source spells the other tokens. -/
theorem Spells.drop_symbol {source : List Char} {tokens : List Token} {operator : Operator}
    (spells : Spells alphanumeric source tokens) (isNext : nextOperator tokens = some operator) :
    ∃ token more, tokens = token :: more ∧ token.operator = some operator ∧
      Spells alphanumeric (Gpui.skipWhitespace (source.drop operator.symbol.length)) more := by
  cases spells with
  | nil => cases isNext
  | @cons token gap rest more valid blank apart back =>
      refine ⟨token, more, rfl, isNext, ?_⟩
      rw [← Operator.text_token isNext, List.drop_left, back.skipWhitespace blank]
      exact back

/-! ## Derivations -/

/-- What is derived between operators of at least a precedence. -/
inductive Derives : Nat → KeyBindingContextPredicate → List Token → Prop where
  | word {level : Nat} {first : Char} {rest : List Char} :
      Derives level (.identifier (String.ofList (first :: rest))) [.word first rest]
  | vim {level : Nat} {operator : Char} :
      Derives level (.identifier (String.singleton operator)) [.vim operator]
  | not {level : Nat} {predicate : KeyBindingContextPredicate} {tokens : List Token}
      (operand : Derives precedenceNot predicate tokens) :
      Derives level (.not predicate) (.bang :: tokens)
  | paren {level : Nat} {predicate : KeyBindingContextPredicate} {tokens : List Token}
      (inner : Derives 0 predicate tokens) :
      Derives level predicate (.opening :: (tokens ++ [.closing]))
  | binary {level : Nat} {left right both : KeyBindingContextPredicate} {token : Token}
      {operator : Operator} {leftTokens rightTokens : List Token}
      (isOperator : token.operator = some operator) (within : level ≤ operator.precedence)
      (leftDerives : Derives operator.precedence left leftTokens)
      (rightDerives : Derives (operator.precedence + 1) right rightTokens)
      (constructs : operator.construct left right = pure both) :
      Derives level both (leftTokens ++ token :: rightTokens)

theorem Derives.weaken {level lower : Nat} {predicate : KeyBindingContextPredicate}
    {tokens : List Token} (derives : Derives level predicate tokens) (le : lower ≤ level) :
    Derives lower predicate tokens := by
  cases derives with
  | word => exact .word
  | vim => exact .vim
  | not operand => exact .not operand
  | paren inner => exact .paren inner
  | binary isOperator within leftDerives rightDerives constructs =>
      exact .binary isOperator (le.trans within) leftDerives rightDerives constructs

/-- The operators that follow bind less than a precedence. -/
def EndsBelow (level : Nat) (tokens : List Token) : Prop :=
  ∀ operator ∈ nextOperator tokens, operator.precedence < level

theorem Operator.precedence_lt_not (operator : Operator) : operator.precedence < precedenceNot := by
  cases operator <;> decide

/-! ## What is accepted is derived -/

/-- Where the loop stops, the next operator binds too little. -/
theorem Spells.stops_iff {source : List Char} {tokens : List Token}
    (spells : Spells alphanumeric source tokens) {minPrecedence : Nat} :
    Operator.next source minPrecedence = none ↔ EndsBelow minPrecedence tokens := by
  rw [spells.next, Option.filter_eq_none_iff, EndsBelow]
  simp

/-- What a call reads of a source that spells tokens, and what it has derived then. -/
def Sound : Call → KeyBindingContextPredicate → List Token → List Token → Prop
  | .expr _ minPrecedence, predicate, used, left =>
      Derives minPrecedence predicate used ∧ EndsBelow minPrecedence left
  | .operators first _ minPrecedence, predicate, used, left =>
      (∀ front level, Derives level first front → minPrecedence ≤ level →
        EndsBelow (level + 1) (used ++ left) → Derives minPrecedence predicate (front ++ used)) ∧
        EndsBelow minPrecedence left
  | .primary _, predicate, used, _ => ∀ level, Derives level predicate used

/-- No operand begins with `=`. -/
theorem not_parses_equals {source rest : List Char} {minPrecedence : Nat}
    {predicate : KeyBindingContextPredicate} :
    ¬ Parses alphanumeric (.expr ('=' :: source) minPrecedence) predicate rest := by
  intro parses
  cases parses with
  | expr operand _ =>
      generalize whole : '=' :: source = text at operand
      cases operand with
      | paren _ => exact absurd (List.cons.inj whole).1 (by decide)
      | not _ => exact absurd (List.cons.inj whole).1 (by decide)
      | word identifier =>
          rw [← (List.cons.inj whole).1, not_isIdentifierChar_of_ascii (by decide) (by decide)]
            at identifier
          cases identifier
      | vimOperator vim =>
          rw [← (List.cons.inj whole).1] at vim
          exact absurd vim (by decide)

/-- A word ends where its token does. -/
theorem takeWhile_word {first : Char} {others after : List Char}
    (valid : (Token.word first others).Valid alphanumeric)
    (apart : (Token.word first others).Apart alphanumeric after) :
    ((first :: (others ++ after)).takeWhile fun c =>
      isIdentifierChar alphanumeric c || isVimOperatorChar c) = first :: others := by
  have inside : ∀ c ∈ first :: others,
      (isIdentifierChar alphanumeric c || isVimOperatorChar c) = true := by
    rw [List.forall_mem_cons]
    exact ⟨by rw [valid.1, Bool.true_or], valid.2⟩
  rw [← List.cons_append, List.takeWhile_append_of_pos inside]
  cases after with
  | nil => simp
  | cons c after => rw [List.takeWhile_cons_of_neg (by simp [apart c rfl]), List.append_nil]

theorem Parses.sound {call : Call} {predicate : KeyBindingContextPredicate} {rest : List Char}
    (parses : Parses alphanumeric call predicate rest) {tokens : List Token}
    (spells : Spells alphanumeric call.source tokens) :
    ∃ used left, tokens = used ++ left ∧ Spells alphanumeric rest left ∧
      Sound call predicate used left := by
  induction parses generalizing tokens with
  | @expr source middle rest minPrecedence first predicate _ _ operandSound operatorsSound =>
      rcases operandSound spells with ⟨front, between, rfl, spellsBetween, derives⟩
      rcases operatorsSound spellsBetween with ⟨used, left, rfl, spellsLeft, continues, ends⟩
      refine ⟨front ++ used, left, (List.append_assoc _ _ _).symm, spellsLeft, ?_, ends⟩
      apply continues front (max minPrecedence precedenceNot) (derives _) (le_max_left _ _)
      intro operator _
      have less := operator.precedence_lt_not
      omega
  | @operator source middle rest minPrecedence first right both predicate operator next _ constructs
      _ operandSound operatorsSound =>
      have spelled : Spells alphanumeric source tokens := spells
      have within := (Operator.next_eq_some next).2
      have isNext : nextOperator tokens = some operator := by
        rw [spelled.next] at next
        exact (Option.filter_eq_some_iff.mp next).1
      rcases spelled.drop_symbol isNext with ⟨token, more, rfl, isOperator, spellsMore⟩
      rcases operandSound spellsMore with
        ⟨operand, between, rfl, spellsBetween, derivesRight, endsRight⟩
      rcases operatorsSound spellsBetween with ⟨used, left, rfl, spellsLeft, continues, ends⟩
      refine ⟨token :: operand ++ used, left, by simp, spellsLeft, ?_, ends⟩
      intro front level derives le endsBelow
      have reaches : operator.precedence ≤ level := Nat.le_of_lt_succ (endsBelow operator isNext)
      have derivesBoth : Derives operator.precedence both (front ++ token :: operand) :=
        .binary isOperator le_rfl (derives.weaken reaches) derivesRight constructs
      have whole := continues _ operator.precedence derivesBoth within endsRight
      rwa [List.append_assoc] at whole
  | stop next =>
      refine ⟨[], tokens, rfl, spells, ?_, spells.stops_iff.1 next⟩
      intro front level derives le _
      rw [List.append_nil]
      exact derives.weaken le
  | @paren source stripped predicate _ innerSound =>
      rcases spells.uncons with
        ⟨token, gap, rest, more, rfl, begins, rfl, valid, blank, -, spellsMore⟩
      rcases Token.eq_opening valid begins.symm with rfl
      rw [← spellsMore.skipWhitespace blank] at spellsMore
      rcases innerSound spellsMore with ⟨inner, closed, rfl, spellsClosed, derives, -⟩
      rcases spellsClosed.uncons with
        ⟨last, lastGap, after, left, rfl, ends, rfl, lastValid, lastBlank, -, spellsLeft⟩
      rcases Token.eq_closing lastValid ends.symm with rfl
      refine ⟨.opening :: (inner ++ [.closing]), left, by simp, ?_, fun _ => .paren derives⟩
      have skipped := spellsLeft.skipWhitespace lastBlank
      change Spells alphanumeric (Gpui.skipWhitespace (lastGap ++ after)) left
      rwa [skipped]
  | @not source rest predicate operand operandSound =>
      rcases spells.uncons with
        ⟨token, gap, after, more, rfl, begins, rfl, valid, blank, -, spellsMore⟩
      rcases Token.eq_bang_or_neq valid begins.symm with rfl | rfl
      · rw [← spellsMore.skipWhitespace blank] at spellsMore
        rcases operandSound spellsMore with ⟨used, left, rfl, spellsLeft, derives, -⟩
        exact ⟨.bang :: used, left, rfl, spellsLeft, fun _ => .not derives⟩
      · exact absurd operand not_parses_equals
  | @word next source identifier =>
      rcases spells.uncons with
        ⟨token, gap, after, more, rfl, begins, rfl, valid, blank, apart, spellsMore⟩
      rcases Token.eq_word valid (begins ▸ identifier) with ⟨others, isWord⟩
      rw [← begins] at isWord
      subst isWord
      simp only [Token.others, takeWhile_word valid apart]
      refine ⟨[.word next others], more, rfl, ?_, fun _ => .word⟩
      rw [← List.cons_append, List.drop_left, spellsMore.skipWhitespace blank]
      exact spellsMore
  | @vimOperator next source vim =>
      rcases spells.uncons with
        ⟨token, gap, after, more, rfl, begins, rfl, valid, blank, -, spellsMore⟩
      rw [begins] at vim
      have isVim := Token.eq_vim valid vim
      rw [← begins] at isVim
      subst isVim
      refine ⟨[.vim next], more, rfl, ?_, fun _ => .vim⟩
      change Spells alphanumeric (Gpui.skipWhitespace (gap ++ after)) more
      rwa [spellsMore.skipWhitespace blank]

/-! ## What is derived is accepted -/

theorem EndsBelow.mono {lower level : Nat} (le : lower ≤ level) {tokens : List Token}
    (ends : EndsBelow lower tokens) : EndsBelow level tokens :=
  fun operator isNext => (ends operator isNext).trans_le le

theorem Spells.cons_inv {source : List Char} {token : Token} {more : List Token}
    (spells : Spells alphanumeric source (token :: more)) :
    ∃ gap rest, source = token.first :: (token.others ++ (gap ++ rest)) ∧
      token.Valid alphanumeric ∧ (∀ c ∈ gap, isWhitespace c = true) ∧
      token.Apart alphanumeric (gap ++ rest) ∧ Spells alphanumeric rest more := by
  cases spells with
  | @cons _ gap rest _ valid blank apart back =>
      exact ⟨gap, rest, rfl, valid, blank, .of_gap blank apart, back⟩

/-- Reading an operand that is derived leaves the loop with it.  The loop goes on as it
would from there: an operand of one level may be the left one of the next. -/
theorem Derives.complete {level : Nat} {predicate : KeyBindingContextPredicate}
    {used : List Token} (derives : Derives level predicate used) {minPrecedence : Nat}
    (le : minPrecedence ≤ level) {source : List Char} {left : List Token}
    (spells : Spells alphanumeric source (used ++ left)) (ends : EndsBelow (level + 1) left) :
    ∃ rest, Spells alphanumeric rest left ∧
      ∀ {result : KeyBindingContextPredicate} {after : List Char},
        Parses alphanumeric (.operators predicate rest minPrecedence) result after →
          Parses alphanumeric (.expr source minPrecedence) result after := by
  induction derives generalizing minPrecedence source left with
  | @word level first others =>
      rcases spells.cons_inv with ⟨gap, rest, rfl, valid, blank, apart, back⟩
      refine ⟨rest, back, fun loops => .expr ?_ loops⟩
      have operand : Parses alphanumeric (.primary (first :: (others ++ (gap ++ rest)))) _ _ :=
        .word valid.1
      rw [takeWhile_word valid apart, ← List.cons_append, List.drop_left,
        back.skipWhitespace blank] at operand
      exact operand
  | @vim level operator =>
      rcases spells.cons_inv with ⟨gap, rest, rfl, valid, blank, -, back⟩
      refine ⟨rest, back, fun loops => .expr ?_ loops⟩
      have operand : Parses alphanumeric (.primary (operator :: (gap ++ rest))) _ _ :=
        .vimOperator valid
      rwa [back.skipWhitespace blank] at operand
  | @not level predicate tokens _ operandComplete =>
      rcases spells.cons_inv with ⟨gap, rest, rfl, valid, blank, -, back⟩
      have noOperator : EndsBelow precedenceNot left := fun operator _ => operator.precedence_lt_not
      rcases operandComplete le_rfl back (noOperator.mono (Nat.le_succ _)) with
        ⟨after, spellsAfter, operand⟩
      have inner := operand (.stop (spellsAfter.stops_iff.2 noOperator))
      rw [← back.skipWhitespace blank] at inner
      exact ⟨after, spellsAfter, fun loops => .expr (.not inner) loops⟩
  | @paren level predicate tokens _ innerComplete =>
      rw [List.cons_append, List.append_assoc] at spells
      rcases spells.cons_inv with ⟨gap, rest, rfl, valid, blank, -, back⟩
      have closes : EndsBelow 0 ([Token.closing] ++ left) := nofun
      rcases innerComplete le_rfl back (closes.mono (Nat.zero_le _)) with
        ⟨closed, spellsClosed, inner⟩
      have inside := inner (.stop (spellsClosed.stops_iff.2 closes))
      rcases Spells.cons_inv spellsClosed with ⟨lastGap, after, rfl, -, lastBlank, -, spellsAfter⟩
      rw [← back.skipWhitespace blank] at inside
      have operand := Parses.paren inside
      change Parses alphanumeric _ predicate (Gpui.skipWhitespace (lastGap ++ after)) at operand
      rw [spellsAfter.skipWhitespace lastBlank] at operand
      exact ⟨after, spellsAfter, fun loops => .expr operand loops⟩
  | @binary level leftOperand right both token operator leftTokens rightTokens isOperator within _ _
      constructs leftComplete rightComplete =>
      rw [List.append_assoc, List.cons_append] at spells
      have isNext : nextOperator (token :: (rightTokens ++ left)) = some operator := isOperator
      have endsLeft : EndsBelow (operator.precedence + 1) (token :: (rightTokens ++ left)) := by
        intro other isOther
        rcases isNext.symm.trans isOther with ⟨⟩
        exact Nat.lt_succ_self _
      rcases leftComplete (le.trans within) spells endsLeft with ⟨middle, spellsMiddle, leftReads⟩
      have next : Operator.next middle minPrecedence = some operator := by
        rw [spellsMiddle.next, isNext]
        exact Option.filter_eq_some_iff.mpr ⟨rfl, by simpa using le.trans within⟩
      rcases spellsMiddle.drop_symbol isNext with ⟨_, _, ⟨⟩, -, spellsRight⟩
      have endsRight : EndsBelow (operator.precedence + 1) left :=
        ends.mono (Nat.succ_le_succ within)
      rcases rightComplete le_rfl spellsRight (endsRight.mono (Nat.le_succ _)) with
        ⟨rest, spellsRest, rightReads⟩
      have operand := rightReads (.stop (spellsRest.stops_iff.2 endsRight))
      exact ⟨rest, spellsRest, fun loops => leftReads (.operator next operand constructs loops)⟩

/-- On a source that spells tokens, parsing returns what is derived from them. -/
theorem parse_eq_pure_iff_derives {source : String} {tokens : List Token}
    (spells : Spells alphanumeric (skipWhitespace source.toList) tokens)
    {predicate : KeyBindingContextPredicate} :
    parse alphanumeric source = pure predicate ↔ Derives 0 predicate tokens := by
  rw [parse_eq_pure_iff]
  constructor
  · intro parses
    rcases parses.sound spells with ⟨used, left, rfl, spellsLeft, derives, -⟩
    rwa [spellsLeft.eq_nil, List.append_nil]
  · intro derives
    have ends : EndsBelow 0 ([] : List Token) := nofun
    rw [← List.append_nil tokens] at spells
    rcases derives.complete le_rfl spells (ends.mono (Nat.zero_le _)) with
      ⟨rest, spellsRest, reads⟩
    rcases spellsRest.source_eq_nil with rfl
    exact reads (.stop (spellsRest.stops_iff.2 ends))

end KeyBindingContextPredicate

end Gpui
