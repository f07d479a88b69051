import Gpui.Keymap.PredicateGrammar

/-!
# Reading predicates back

Predicates written with the parentheses that the precedences require are read back.
The printer has its own rule: it puts conjunctions and disjunctions in parentheses and
nothing else.
-/

namespace Gpui

namespace KeyBindingContextPredicate

/-! ## Names -/

def nameToken (name : String) : Token :=
  match name.toList with
  | [] => .word ' ' []
  | first :: rest =>
      if rest = [] ∧ isVimOperatorChar first then .vim first else .word first rest

variable (alphanumeric : Alphanumeric)

/-- What the parser reads as an identifier: a word, or a single operator of vim. -/
def IsIdentifier (name : String) : Prop :=
  (∃ operator, name.toList = [operator] ∧ isVimOperatorChar operator = true) ∨
    ∃ first rest, name.toList = first :: rest ∧ isIdentifierChar alphanumeric first = true ∧
      ∀ c ∈ rest, (isIdentifierChar alphanumeric c || isVimOperatorChar c) = true

/-- All names of a predicate are identifiers. -/
def Named : KeyBindingContextPredicate → Prop
  | identifier name => IsIdentifier alphanumeric name
  | equal left right => IsIdentifier alphanumeric left ∧ IsIdentifier alphanumeric right
  | notEqual left right => IsIdentifier alphanumeric left ∧ IsIdentifier alphanumeric right
  | descendant parent child => parent.Named ∧ child.Named
  | not predicate => predicate.Named
  | and left right => left.Named ∧ right.Named
  | or left right => left.Named ∧ right.Named

variable {alphanumeric}

theorem IsIdentifier.token {name : String} (isIdentifier : IsIdentifier alphanumeric name) :
    (nameToken name).Valid alphanumeric ∧ (nameToken name).text = name.toList ∧
      ∀ level, Derives level (.identifier name) [nameToken name] := by
  rcases isIdentifier with ⟨operator, split, vim⟩ | ⟨first, rest, split, identifier, others⟩
  · have isVim : nameToken name = .vim operator := by simp [nameToken, split, vim]
    have same : name = String.singleton operator := by
      rw [← String.toList_inj, split, String.toList_singleton]
    rw [isVim, split, same]
    exact ⟨vim, rfl, fun _ => .vim⟩
  · have notVim : isVimOperatorChar first = false := by
      rw [Bool.eq_false_iff]
      intro vim
      rw [not_isIdentifierChar_of_isVimOperatorChar alphanumeric vim] at identifier
      cases identifier
    have isWord : nameToken name = .word first rest := by simp [nameToken, split, notVim]
    have same : name = String.ofList (first :: rest) := by
      rw [← String.toList_inj, split, String.toList_ofList]
    rw [isWord, split, same]
    exact ⟨⟨identifier, others⟩, rfl, fun _ => .word⟩

/-! ## The least parentheses -/

def parenthesize (needed : Bool) (tokens : List Token) : List Token :=
  if needed then .opening :: (tokens ++ [.closing]) else tokens

/-- A predicate as an operand that binds at least as much as a precedence. -/
def render (level : Nat) : KeyBindingContextPredicate → List Token
  | identifier name => [nameToken name]
  | equal left right =>
      parenthesize (precedenceEq < level) [nameToken left, .eq, nameToken right]
  | notEqual left right =>
      parenthesize (precedenceEq < level) [nameToken left, .neq, nameToken right]
  | not predicate => .bang :: predicate.render precedenceNot
  | descendant parent child =>
      parenthesize (precedenceChild < level)
        (parent.render precedenceChild ++ .vim '>' :: child.render (precedenceChild + 1))
  | and left right =>
      parenthesize (precedenceAnd < level)
        (left.render precedenceAnd ++ .and :: right.render (precedenceAnd + 1))
  | or left right =>
      parenthesize (precedenceOr < level)
        (left.render precedenceOr ++ .or :: right.render (precedenceOr + 1))

theorem Derives.parenthesize {level precedence : Nat} {predicate : KeyBindingContextPredicate}
    {tokens : List Token} (derives : Derives precedence predicate tokens) :
    Derives level predicate (parenthesize (precedence < level) tokens) := by
  rw [KeyBindingContextPredicate.parenthesize]
  split
  next => exact .paren (derives.weaken (Nat.zero_le _))
  next within =>
    rw [decide_eq_true_eq, not_lt] at within
    exact derives.weaken within

theorem derives_render {predicate : KeyBindingContextPredicate}
    (named : predicate.Named alphanumeric) (level : Nat) :
    Derives level predicate (predicate.render level) := by
  induction predicate generalizing level with
  | identifier name => exact named.token.2.2 level
  | equal left right =>
      refine Derives.parenthesize ?_
      exact .binary (rfl : Token.eq.operator = some .eq) le_rfl (named.1.token.2.2 _) (named.2.token.2.2 _) rfl
  | notEqual left right =>
      refine Derives.parenthesize ?_
      exact .binary (rfl : Token.neq.operator = some .neq) le_rfl (named.1.token.2.2 _) (named.2.token.2.2 _) rfl
  | not predicate ih => exact .not (ih named _)
  | descendant parent child parentIh childIh =>
      refine Derives.parenthesize ?_
      exact .binary (rfl : (Token.vim '>').operator = some .child) le_rfl (parentIh named.1 _) (childIh named.2 _) rfl
  | and left right leftIh rightIh =>
      refine Derives.parenthesize ?_
      exact .binary (rfl : Token.and.operator = some .and) le_rfl (leftIh named.1 _) (rightIh named.2 _) rfl
  | or left right leftIh rightIh =>
      refine Derives.parenthesize ?_
      exact .binary (rfl : Token.or.operator = some .or) le_rfl (leftIh named.1 _) (rightIh named.2 _) rfl

theorem valid_parenthesize {needed : Bool} {tokens : List Token}
    (valid : ∀ token ∈ tokens, token.Valid alphanumeric) :
    ∀ token ∈ parenthesize needed tokens, token.Valid alphanumeric := by
  rw [parenthesize]
  split
  next =>
    intro token member
    rcases List.mem_cons.mp member with rfl | inside
    · trivial
    · rcases List.mem_append.mp inside with inTokens | isClosing
      · exact valid token inTokens
      · rw [List.mem_singleton.mp isClosing]
        trivial
  next => exact valid

theorem valid_binary {left right : List Token} {token : Token}
    (leftValid : ∀ token ∈ left, token.Valid alphanumeric) (valid : token.Valid alphanumeric)
    (rightValid : ∀ token ∈ right, token.Valid alphanumeric) :
    ∀ other ∈ left ++ token :: right, other.Valid alphanumeric := by
  intro other member
  rcases List.mem_append.mp member with inLeft | more
  · exact leftValid other inLeft
  · rcases List.mem_cons.mp more with rfl | inRight
    · exact valid
    · exact rightValid other inRight

theorem IsIdentifier.valid {name : String} (isIdentifier : IsIdentifier alphanumeric name) :
    ∀ token ∈ [nameToken name], token.Valid alphanumeric := by
  rw [List.forall_mem_singleton]
  exact isIdentifier.token.1

theorem valid_render {predicate : KeyBindingContextPredicate}
    (named : predicate.Named alphanumeric) (level : Nat) :
    ∀ token ∈ predicate.render level, token.Valid alphanumeric := by
  induction predicate generalizing level with
  | identifier name => exact named.valid
  | equal left right => exact valid_parenthesize (valid_binary named.1.valid trivial named.2.valid)
  | notEqual left right =>
      exact valid_parenthesize (valid_binary named.1.valid trivial named.2.valid)
  | not predicate ih => exact List.forall_mem_cons.mpr ⟨trivial, ih named _⟩
  | descendant parent child parentIh childIh =>
      have isVim : (Token.vim '>').Valid alphanumeric := by
        rw [Token.Valid]
        decide
      exact valid_parenthesize (valid_binary (parentIh named.1 _) isVim (childIh named.2 _))
  | and left right leftIh rightIh =>
      exact valid_parenthesize (valid_binary (leftIh named.1 _) trivial (rightIh named.2 _))
  | or left right leftIh rightIh =>
      exact valid_parenthesize (valid_binary (leftIh named.1 _) trivial (rightIh named.2 _))

/-- A source with whitespace between any two tokens. -/
inductive Spaced : List Char → List Token → Prop where
  | last {token : Token} : Spaced token.text [token]
  | cons {token : Token} {gap rest : List Char} {tokens : List Token} (some : gap ≠ [])
      (blank : ∀ c ∈ gap, isWhitespace c = true) (back : Spaced rest tokens) :
      Spaced (token.text ++ (gap ++ rest)) (token :: tokens)

theorem Spaced.spells {source : List Char} {tokens : List Token} (spaced : Spaced source tokens)
    (valid : ∀ token ∈ tokens, token.Valid alphanumeric) : Spells alphanumeric source tokens := by
  induction spaced with
  | @last token =>
      have spells : Spells alphanumeric (token.text ++ ([] ++ [])) [token] := by
        refine .cons (valid token List.mem_cons_self) (by simp) (fun _ => ?_) .nil
        cases token <;> first | trivial | nofun
      simpa using spells
  | cons some blank _ ih =>
      rw [List.forall_mem_cons] at valid
      exact .cons valid.1 blank (fun empty => absurd empty some) (ih valid.2)

/-- A predicate written with the least parentheses is read back. -/
theorem parse_rendered {predicate : KeyBindingContextPredicate}
    (named : predicate.Named alphanumeric) {source : String}
    (spaced : Spaced source.toList (predicate.render 0)) :
    parse alphanumeric source = pure predicate := by
  have spells := spaced.spells (valid_render named 0)
  have begins : Gpui.skipWhitespace ([] ++ source.toList) = source.toList :=
    spells.skipWhitespace (by simp)
  rw [List.nil_append] at begins
  rw [parse_eq_pure_iff_derives (begins.symm ▸ spells)]
  exact derives_render named 0

/-- A negated disjunction under a conjunction. -/
theorem parse_rendered_and :
    parse .asciiOnly "! ( a || b ) && c" =
      pure (.and (.not (.or (.identifier "a") (.identifier "b"))) (.identifier "c")) := by
  have space : ∀ c ∈ [' '], isWhitespace c = true := List.forall_mem_singleton.mpr rfl
  have word (c : Char) (identifier : isIdentifierChar .asciiOnly c = true) :
      IsIdentifier .asciiOnly (String.ofList [c]) :=
    Or.inr ⟨c, [], String.toList_ofList, identifier, by simp⟩
  have named : (and (not (or (identifier "a") (identifier "b"))) (identifier "c")).Named
      .asciiOnly := ⟨⟨word 'a' rfl, word 'b' rfl⟩, word 'c' rfl⟩
  have spaced : Spaced (Token.bang.text ++ ([' '] ++ (Token.opening.text ++ ([' '] ++
      ((Token.word 'a' []).text ++ ([' '] ++ (Token.or.text ++ ([' '] ++
      ((Token.word 'b' []).text ++ ([' '] ++ (Token.closing.text ++ ([' '] ++
      (Token.and.text ++ ([' '] ++ (Token.word 'c' []).text))))))))))))))
      [.bang, .opening, .word 'a' [], .or, .word 'b' [], .closing, .and, .word 'c' []] :=
    .cons (by simp) space <| .cons (by simp) space <| .cons (by simp) space <|
      .cons (by simp) space <| .cons (by simp) space <| .cons (by simp) space <|
      .cons (by simp) space .last
  exact parse_rendered named spaced

/-! ## The printer -/

def display : KeyBindingContextPredicate → String
  | identifier name => name
  | equal left right => left ++ " == " ++ right
  | notEqual left right => left ++ " != " ++ right
  | not predicate => "!" ++ predicate.display
  | descendant parent child => parent.display ++ " > " ++ child.display
  | and left right => "(" ++ left.display ++ " && " ++ right.display ++ ")"
  | or left right => "(" ++ left.display ++ " || " ++ right.display ++ ")"

def displayTokens : KeyBindingContextPredicate → List Token
  | identifier name => [nameToken name]
  | equal left right => [nameToken left] ++ .eq :: [nameToken right]
  | notEqual left right => [nameToken left] ++ .neq :: [nameToken right]
  | not predicate => .bang :: predicate.displayTokens
  | descendant parent child => parent.displayTokens ++ .vim '>' :: child.displayTokens
  | and left right =>
      .opening :: (left.displayTokens ++ .and :: right.displayTokens ++ [.closing])
  | or left right =>
      .opening :: (left.displayTokens ++ .or :: right.displayTokens ++ [.closing])

variable (alphanumeric) in
/-- What may stand right behind any token. -/
def KeepsApart (rest : List Char) : Prop :=
  ∀ c ∈ rest.head?, (isIdentifierChar alphanumeric c || isVimOperatorChar c) = false ∧ c ≠ '='

theorem KeepsApart.apart {rest : List Char} (keeps : KeepsApart alphanumeric rest)
    (token : Token) : token.Apart alphanumeric rest := by
  cases token with
  | word first others => exact fun c begins => (keeps c begins).1
  | bang => exact fun c begins => (keeps c begins).2
  | _ => trivial

/-- Two sources that are kept apart, one behind the other. -/
theorem Spells.append {front back : List Char} {frontTokens backTokens : List Token}
    (frontSpells : Spells alphanumeric front frontTokens) (some : frontTokens ≠ [])
    (gap : List Char) (blank : ∀ c ∈ gap, isWhitespace c = true) (keeps : KeepsApart alphanumeric (gap ++ back))
    (backSpells : Spells alphanumeric back backTokens) :
    Spells alphanumeric (front ++ (gap ++ back)) (frontTokens ++ backTokens) := by
  induction frontSpells with
  | nil => exact absurd rfl some
  | @cons token inner rest tokens valid innerBlank apart restSpells ih =>
      cases tokens with
      | nil =>
          rcases restSpells.source_eq_nil with rfl
          have bothBlank : ∀ c ∈ inner ++ gap, isWhitespace c = true := by
            intro c member
            rcases List.mem_append.mp member with inInner | inGap
            · exact innerBlank c inInner
            · exact blank c inGap
          have spells := Spells.cons valid bothBlank (fun empty => ?_) backSpells
          · simpa using spells
          · rw [(List.append_eq_nil_iff.mp empty).2] at keeps
            exact keeps.apart token
      | cons next tokens =>
          have spells := Spells.cons valid innerBlank (fun empty => ?_)
            (ih (List.cons_ne_nil _ _))
          · simpa using spells
          · rcases restSpells.cons_inv with ⟨_, _, rfl, -⟩
            exact apart empty

theorem Spells.direct {source : List Char} {token : Token} {tokens : List Token}
    (valid : token.Valid alphanumeric) (apart : token.Apart alphanumeric source)
    (spells : Spells alphanumeric source tokens) :
    Spells alphanumeric (token.text ++ source) (token :: tokens) := by
  have noGap : ∀ c ∈ ([] : List Char), isWhitespace c = true := by simp
  exact .cons valid noGap (fun _ => apart) spells

theorem Spells.single {token : Token} (valid : token.Valid alphanumeric) :
    Spells alphanumeric token.text [token] := by
  have apart : token.Apart alphanumeric [] := by
    cases token <;> first | trivial | nofun
  rw [← List.append_nil token.text]
  exact .direct valid apart .nil

theorem Spells.binary {left right : List Char} {leftTokens rightTokens : List Token}
    (leftSpells : Spells alphanumeric left leftTokens) (some : leftTokens ≠ [])
    {token : Token} (valid : token.Valid alphanumeric)
    (rightSpells : Spells alphanumeric right rightTokens) :
    Spells alphanumeric (left ++ ' ' :: (token.text ++ ' ' :: right))
      (leftTokens ++ token :: rightTokens) := by
  have space : ∀ c ∈ [' '], isWhitespace c = true := List.forall_mem_singleton.mpr rfl
  refine leftSpells.append some [' '] space ?_ (.cons valid space nofun rightSpells)
  rintro c ⟨⟩
  rw [not_isIdentifierChar_of_isWhitespace alphanumeric rfl]
  decide

theorem Spells.closed {source : List Char} {tokens : List Token}
    (spells : Spells alphanumeric source tokens) (some : tokens ≠ []) :
    Spells alphanumeric (Token.opening.text ++ (source ++ Token.closing.text))
      (.opening :: (tokens ++ [.closing])) := by
  have valid : Token.closing.Valid alphanumeric := trivial
  refine .direct trivial trivial (spells.append some [] (by simp) ?_ (.single valid))
  rintro c ⟨⟩
  rw [not_isIdentifierChar_of_ascii (by decide) (by decide)]
  decide

theorem displayTokens_ne_nil (predicate : KeyBindingContextPredicate) :
    predicate.displayTokens ≠ [] := by
  cases predicate <;> simp [displayTokens]

theorem IsIdentifier.spells {name : String} (isIdentifier : IsIdentifier alphanumeric name) :
    Spells alphanumeric name.toList [nameToken name] := by
  rw [← isIdentifier.token.2.1]
  exact .single isIdentifier.token.1

theorem nameToken_ne_eq (name : String) : nameToken name ≠ .eq := by
  rw [nameToken]
  split
  next => nofun
  next => split <;> nofun

theorem displayTokens_begins (predicate : KeyBindingContextPredicate) :
    ∀ token ∈ predicate.displayTokens.head?, token ≠ .eq := by
  induction predicate with
  | identifier name =>
      rintro token ⟨⟩
      exact nameToken_ne_eq name
  | equal left right =>
      rintro token ⟨⟩
      exact nameToken_ne_eq left
  | notEqual left right =>
      rintro token ⟨⟩
      exact nameToken_ne_eq left
  | descendant parent child parentIh _ =>
      rw [displayTokens, List.head?_append_of_ne_nil _ (displayTokens_ne_nil parent)]
      exact parentIh
  | _ =>
      rintro token ⟨⟩
      nofun

/-- No predicate is printed with a `=` in front. -/
theorem display_begins {predicate : KeyBindingContextPredicate} {source : List Char}
    (spells : Spells alphanumeric source predicate.displayTokens) : ∀ c ∈ source.head?, c ≠ '=' := by
  rintro c begins rfl
  cases source with
  | nil => cases begins
  | cons first source =>
      cases begins
      rcases spells.uncons with ⟨token, _, _, more, tokens, isFirst, -, valid, -⟩
      have symbol := Token.mem_symbols valid isFirst.symm (by decide) (by decide) (by decide)
      have notEq := displayTokens_begins predicate token (tokens ▸ rfl)
      fin_cases symbol <;> first | exact absurd isFirst (by decide) | exact notEq rfl

theorem spells_display {predicate : KeyBindingContextPredicate}
    (named : predicate.Named alphanumeric) :
    Spells alphanumeric predicate.display.toList predicate.displayTokens := by
  have isVim : (Token.vim '>').Valid alphanumeric := by
    rw [Token.Valid]
    decide
  induction predicate with
  | identifier name => exact named.spells
  | equal left right =>
      have valid : Token.eq.Valid alphanumeric := trivial
      have spells := named.1.spells.binary (by simp) valid named.2.spells
      simpa [display, displayTokens, Token.text, Token.first, Token.others] using spells
  | notEqual left right =>
      have valid : Token.neq.Valid alphanumeric := trivial
      have spells := named.1.spells.binary (by simp) valid named.2.spells
      simpa [display, displayTokens, Token.text, Token.first, Token.others] using spells
  | not predicate ih =>
      have valid : Token.bang.Valid alphanumeric := trivial
      have spells := Spells.direct valid (display_begins (ih named)) (ih named)
      simpa [display, displayTokens, Token.text, Token.first, Token.others] using spells
  | descendant parent child parentIh childIh =>
      have spells := (parentIh named.1).binary (displayTokens_ne_nil parent) isVim (childIh named.2)
      simpa [display, displayTokens, Token.text, Token.first, Token.others] using spells
  | and left right leftIh rightIh =>
      have valid : Token.and.Valid alphanumeric := trivial
      have inner := (leftIh named.1).binary (displayTokens_ne_nil left) valid (rightIh named.2)
      simpa [display, displayTokens, Token.text, Token.first, Token.others] using inner.closed (by simp)
  | or left right leftIh rightIh =>
      have valid : Token.or.Valid alphanumeric := trivial
      have inner := (leftIh named.1).binary (displayTokens_ne_nil left) valid (rightIh named.2)
      simpa [display, displayTokens, Token.text, Token.first, Token.others] using inner.closed (by simp)

/-! ## What the printed tokens derive -/

def isEquality : KeyBindingContextPredicate → Bool
  | equal _ _ => true
  | notEqual _ _ => true
  | _ => false

def isDescendant : KeyBindingContextPredicate → Bool
  | descendant _ _ => true
  | _ => false

/-- No comparison and no `>` is negated, and no `>` is an operand of a conjunction or
disjunction or the right operand of another `>`. -/
def Printable : KeyBindingContextPredicate → Prop
  | identifier _ => True
  | equal _ _ => True
  | notEqual _ _ => True
  | not predicate => predicate.Printable ∧ predicate.isEquality = false ∧
      predicate.isDescendant = false
  | descendant parent child => parent.Printable ∧ child.Printable ∧ child.isDescendant = false
  | and left right => left.Printable ∧ right.Printable ∧ left.isDescendant = false ∧
      right.isDescendant = false
  | or left right => left.Printable ∧ right.Printable ∧ left.isDescendant = false ∧
      right.isDescendant = false

/-- The printed predicate binds at least as much as a precedence. -/
def PrintsAt (level : Nat) : KeyBindingContextPredicate → Prop
  | equal _ _ => level ≤ precedenceEq
  | notEqual _ _ => level ≤ precedenceEq
  | descendant _ _ => level ≤ precedenceChild
  | _ => True

theorem printsAt_eq {predicate : KeyBindingContextPredicate} {level : Nat}
    (low : precedenceChild < level) (high : level ≤ precedenceEq) :
    predicate.PrintsAt level ↔ predicate.isDescendant = false := by
  cases predicate <;> simp [PrintsAt, isDescendant, low, high]

theorem printsAt_not {predicate : KeyBindingContextPredicate} :
    predicate.PrintsAt precedenceNot ↔
      predicate.isEquality = false ∧ predicate.isDescendant = false := by
  cases predicate <;> simp [PrintsAt, isEquality, isDescendant] <;> decide

theorem printsAt_child (predicate : KeyBindingContextPredicate) :
    predicate.PrintsAt precedenceChild := by
  cases predicate <;> simp [PrintsAt] <;> decide

theorem derives_display {predicate : KeyBindingContextPredicate}
    (named : predicate.Named alphanumeric) (printable : predicate.Printable) {level : Nat}
    (prints : predicate.PrintsAt level) : Derives level predicate predicate.displayTokens := by
  induction predicate generalizing level with
  | identifier name => exact named.token.2.2 level
  | equal left right =>
      exact .binary (rfl : Token.eq.operator = some .eq) prints (named.1.token.2.2 _)
        (named.2.token.2.2 _) rfl
  | notEqual left right =>
      exact .binary (rfl : Token.neq.operator = some .neq) prints (named.1.token.2.2 _)
        (named.2.token.2.2 _) rfl
  | not predicate ih => exact .not (ih named printable.1 (printsAt_not.2 printable.2))
  | descendant parent child parentIh childIh =>
      exact .binary (rfl : (Token.vim '>').operator = some .child) prints
        (parentIh named.1 printable.1 (printsAt_child parent))
        (childIh named.2 printable.2.1 ((printsAt_eq (by decide) (by decide)).mpr printable.2.2)) rfl
  | and left right leftIh rightIh =>
      refine .paren (.binary (rfl : Token.and.operator = some .and) (Nat.zero_le _)
        (leftIh named.1 printable.1 ?_) (rightIh named.2 printable.2.1 ?_) rfl)
      · exact (printsAt_eq (by decide) (by decide)).mpr printable.2.2.1
      · exact (printsAt_eq (by decide) (by decide)).mpr printable.2.2.2
  | or left right leftIh rightIh =>
      refine .paren (.binary (rfl : Token.or.operator = some .or) (Nat.zero_le _)
        (leftIh named.1 printable.1 ?_) (rightIh named.2 printable.2.1 ?_) rfl)
      · exact (printsAt_eq (by decide) (by decide)).mpr printable.2.2.1
      · exact (printsAt_eq (by decide) (by decide)).mpr printable.2.2.2

/-! ## Counting tokens -/

/-- Identifiers and operators. -/
def size : KeyBindingContextPredicate → Nat
  | identifier _ => 1
  | equal _ _ => 3
  | notEqual _ _ => 3
  | not predicate => predicate.size + 1
  | descendant parent child => parent.size + child.size + 1
  | and left right => left.size + right.size + 1
  | or left right => left.size + right.size + 1

def Token.isParen : Token → Bool
  | opening => true
  | closing => true
  | _ => false

/-- As many tokens as the predicate needs, and as many parentheses closed as opened. -/
structure Balanced (tokens : List Token) (size : Nat) : Prop where
  others : tokens.countP (fun token => !token.isParen) = size
  parens : tokens.count .opening = tokens.count .closing

theorem Balanced.single {token : Token} (notParen : token.isParen = false) :
    Balanced [token] 1 where
  others := by simp [notParen]
  parens := by cases token <;> first | rfl | cases notParen

theorem Balanced.append {front back : List Token} {first second : Nat}
    (frontBalanced : Balanced front first) (backBalanced : Balanced back second) :
    Balanced (front ++ back) (first + second) where
  others := by rw [List.countP_append, frontBalanced.others, backBalanced.others]
  parens := by rw [List.count_append, List.count_append, frontBalanced.parens, backBalanced.parens]

theorem Balanced.binary {front back : List Token} {first second : Nat} {token : Token}
    (frontBalanced : Balanced front first) (notParen : token.isParen = false)
    (backBalanced : Balanced back second) :
    Balanced (front ++ token :: back) (first + second + 1) := by
  have whole := frontBalanced.append ((Balanced.single notParen).append backBalanced)
  rwa [Nat.add_comm 1, ← Nat.add_assoc] at whole

theorem Balanced.closed {tokens : List Token} {size : Nat} (balanced : Balanced tokens size) :
    Balanced (.opening :: (tokens ++ [.closing])) size where
  others := by simpa [Token.isParen] using balanced.others
  parens := by simpa using balanced.parens

theorem Operator.not_isParen {token : Token} {operator : Operator}
    (isOperator : token.operator = some operator) : token.isParen = false := by
  cases token <;> first | rfl | cases isOperator

/-- The operator and the operands of a predicate. -/
def operands : KeyBindingContextPredicate →
    Option (Operator × KeyBindingContextPredicate × KeyBindingContextPredicate)
  | equal left right => some (.eq, .identifier left, .identifier right)
  | notEqual left right => some (.neq, .identifier left, .identifier right)
  | descendant parent child => some (.child, parent, child)
  | and left right => some (.and, left, right)
  | or left right => some (.or, left, right)
  | _ => none

theorem operands_of_construct {operator : Operator} {left right both : KeyBindingContextPredicate}
    (constructs : operator.construct left right = pure both) :
    both.operands = some (operator, left, right) := by
  cases operator with
  | eq => cases left <;> cases right <;> (cases constructs; try rfl)
  | neq => cases left <;> cases right <;> (cases constructs; try rfl)
  | _ =>
      rcases pure_inj.1 constructs with rfl
      rfl

theorem size_of_operands {operator : Operator} {left right both : KeyBindingContextPredicate}
    (isBoth : both.operands = some (operator, left, right)) :
    both.size = left.size + right.size + 1 := by
  cases both <;> cases isBoth <;> rfl

theorem named_of_operands {operator : Operator} {left right both : KeyBindingContextPredicate}
    (isBoth : both.operands = some (operator, left, right)) (leftNamed : left.Named alphanumeric)
    (rightNamed : right.Named alphanumeric) : both.Named alphanumeric := by
  cases both <;> cases isBoth <;> exact ⟨leftNamed, rightNamed⟩

theorem Derives.balanced {level : Nat} {predicate : KeyBindingContextPredicate}
    {tokens : List Token} (derives : Derives level predicate tokens) :
    Balanced tokens predicate.size := by
  induction derives with
  | word => exact .single rfl
  | vim => exact .single rfl
  | not _ ih =>
      have whole := (show Balanced [.bang] 1 from Balanced.single rfl).append ih
      rwa [Nat.add_comm] at whole
  | paren _ ih => exact ih.closed
  | binary isOperator _ _ _ constructs leftIh rightIh =>
      rw [size_of_operands (operands_of_construct constructs)]
      exact leftIh.binary (Operator.not_isParen isOperator) rightIh

theorem not_isParen_nameToken (name : String) : (nameToken name).isParen = false := by
  rw [nameToken]
  split
  next => rfl
  next => split <;> rfl

theorem balanced_displayTokens (predicate : KeyBindingContextPredicate) :
    Balanced predicate.displayTokens predicate.size := by
  induction predicate with
  | identifier name => exact .single (not_isParen_nameToken name)
  | equal left right =>
      exact (Balanced.single (not_isParen_nameToken left)).binary rfl
        (Balanced.single (not_isParen_nameToken right))
  | notEqual left right =>
      exact (Balanced.single (not_isParen_nameToken left)).binary rfl
        (Balanced.single (not_isParen_nameToken right))
  | not predicate ih =>
      have whole := (show Balanced [.bang] 1 from Balanced.single rfl).append ih
      rwa [Nat.add_comm] at whole
  | descendant parent child parentIh childIh => exact parentIh.binary rfl childIh
  | and left right leftIh rightIh => exact (leftIh.binary rfl rightIh).closed
  | or left right leftIh rightIh => exact (leftIh.binary rfl rightIh).closed

/-! ## Derivations of printed tokens -/

/-- Tokens in a number of parentheses. -/
def wrapped (parens : Nat) (tokens : List Token) : List Token :=
  List.replicate parens .opening ++ (tokens ++ List.replicate parens .closing)

theorem wrapped_succ (parens : Nat) (tokens : List Token) :
    wrapped (parens + 1) tokens = .opening :: (wrapped parens tokens ++ [.closing]) := by
  rw [wrapped, wrapped, List.replicate_succ, List.replicate_succ' , List.cons_append,
    List.append_assoc, List.append_assoc]

/-- A token that follows equally many others stands at the same place. -/
theorem append_cons_inj {front front' back back' : List Token} {token token' : Token}
    (same : front ++ token :: back = front' ++ token' :: back')
    (count : front.countP (fun token => !token.isParen) =
      front'.countP fun token => !token.isParen)
    (notParen : token.isParen = false) (notParen' : token'.isParen = false) :
    front = front' ∧ token = token' ∧ back = back' := by
  rcases List.append_eq_append_iff.mp same with ⟨more, rfl, split⟩ | ⟨more, rfl, split⟩
  · cases more with
    | nil =>
        rcases List.cons.inj split with ⟨rfl, rfl⟩
        simp
    | cons next more =>
        rcases List.cons.inj split with ⟨rfl, -⟩
        simp [notParen] at count
  · cases more with
    | nil =>
        rcases List.cons.inj split with ⟨rfl, rfl⟩
        simp
    | cons next more =>
        rcases List.cons.inj split with ⟨rfl, -⟩
        simp [notParen'] at count

theorem wrapped_inj {parens parens' size : Nat} {left left' right right' : List Token}
    {token token' : Token}
    (same : wrapped parens (left ++ token :: right) = wrapped parens' (left' ++ token' :: right'))
    (balanced : Balanced left size) (balanced' : Balanced left' size)
    (notParen : token.isParen = false) (notParen' : token'.isParen = false) :
    parens = parens' ∧ left = left' ∧ right = right' := by
  simp only [wrapped, List.append_assoc, List.cons_append] at same
  rw [← List.append_assoc, ← List.append_assoc (List.replicate parens' _)] at same
  have count : (List.replicate parens Token.opening ++ left).countP (fun token => !token.isParen) =
      (List.replicate parens' Token.opening ++ left').countP fun token => !token.isParen := by
    rw [List.countP_append, List.countP_append, balanced.others, balanced'.others,
      List.countP_replicate, List.countP_replicate]
    rfl
  rcases append_cons_inj same count notParen notParen' with ⟨fronts, -, backs⟩
  have opened := congrArg (List.count .opening) fronts
  have closed := congrArg (List.count .closing) fronts
  simp only [List.count_append, List.count_replicate] at opened closed
  have parensSame := balanced.parens
  have parensSame' := balanced'.parens
  have equal : parens = parens' := by simp at opened closed; omega
  subst equal
  exact ⟨rfl, List.append_cancel_left fronts, List.append_cancel_right backs⟩

theorem Derives.binary_inv {level : Nat} {both : KeyBindingContextPredicate} {tokens : List Token}
    (derives : Derives level both tokens) {operator : Operator}
    {left right : KeyBindingContextPredicate}
    (isBoth : both.operands = some (operator, left, right)) :
    ∃ parens token leftTokens rightTokens,
      tokens = wrapped parens (leftTokens ++ token :: rightTokens) ∧
        token.operator = some operator ∧ (parens = 0 → level ≤ operator.precedence) ∧
        Derives operator.precedence left leftTokens ∧
        Derives (operator.precedence + 1) right rightTokens := by
  induction derives with
  | word => cases isBoth
  | vim => cases isBoth
  | not _ _ => cases isBoth
  | paren _ ih =>
      rcases ih isBoth with ⟨parens, token, leftTokens, rightTokens, rfl, isOperator, -, operands⟩
      refine ⟨parens + 1, token, leftTokens, rightTokens, ?_, isOperator, nofun, operands⟩
      rw [wrapped_succ]
  | binary isOperator within leftDerives rightDerives constructs =>
      rcases Option.some.inj ((operands_of_construct constructs).symm.trans isBoth) with ⟨⟩
      exact ⟨0, _, _, _, by simp [wrapped], isOperator, fun _ => within, leftDerives, rightDerives⟩

theorem Derives.not_inv {level : Nat} {predicate : KeyBindingContextPredicate} {tokens : List Token}
    (derives : Derives level (.not predicate) tokens) :
    ∃ parens inner, tokens = wrapped parens (.bang :: inner) ∧
      Derives precedenceNot predicate inner := by
  generalize negated : KeyBindingContextPredicate.not predicate = whole at derives
  induction derives with
  | word => cases negated
  | vim => cases negated
  | not operand _ =>
      cases negated
      exact ⟨0, _, by simp [wrapped], operand⟩
  | paren _ ih =>
      rcases ih negated with ⟨parens, inner, rfl, operand⟩
      exact ⟨parens + 1, inner, by rw [wrapped_succ], operand⟩
  | binary _ _ _ _ constructs _ _ =>
      have isBoth := operands_of_construct constructs
      rw [← negated] at isBoth
      cases isBoth

/-- What a printed operator with its operands derives, its operands do. -/
theorem Derives.of_display {level parens : Nat} {both left right : KeyBindingContextPredicate}
    {token : Token} {operator : Operator} (isBoth : both.operands = some (operator, left, right))
    (isOperator : token.operator = some operator)
    (derives : Derives level both
      (wrapped parens (left.displayTokens ++ token :: right.displayTokens))) :
    (parens = 0 → level ≤ operator.precedence) ∧
      Derives operator.precedence left left.displayTokens ∧
      Derives (operator.precedence + 1) right right.displayTokens := by
  rcases derives.binary_inv isBoth with
    ⟨_, token', leftTokens, rightTokens, same, isOperator', within, leftDerives, rightDerives⟩
  rcases wrapped_inj same (balanced_displayTokens left) leftDerives.balanced
    (Operator.not_isParen isOperator) (Operator.not_isParen isOperator') with ⟨rfl, rfl, rfl⟩
  exact ⟨within, leftDerives, rightDerives⟩

theorem printable_of_derives {predicate : KeyBindingContextPredicate} {level : Nat}
    (derives : Derives level predicate predicate.displayTokens) :
    predicate.Printable ∧ predicate.PrintsAt level := by
  induction predicate generalizing level with
  | identifier name => exact ⟨trivial, trivial⟩
  | equal left right =>
      have whole : Derives level (equal left right)
          (wrapped 0 ((identifier left).displayTokens ++ .eq :: (identifier right).displayTokens)) := by
        simpa [wrapped, displayTokens] using derives
      rcases whole.of_display rfl rfl with ⟨within, -⟩
      exact ⟨trivial, within rfl⟩
  | notEqual left right =>
      have whole : Derives level (notEqual left right)
          (wrapped 0 ((identifier left).displayTokens ++ .neq :: (identifier right).displayTokens)) := by
        simpa [wrapped, displayTokens] using derives
      rcases whole.of_display rfl rfl with ⟨within, -⟩
      exact ⟨trivial, within rfl⟩
  | not predicate ih =>
      rcases derives.not_inv with ⟨parens, inner, same, operand⟩
      cases parens with
      | zero =>
          have tokens : predicate.displayTokens = inner := by simpa [wrapped, displayTokens] using same
          rcases ih (tokens ▸ operand) with ⟨printable, prints⟩
          exact ⟨⟨printable, printsAt_not.1 prints⟩, trivial⟩
      | succ parens =>
          rw [wrapped_succ] at same
          cases same
  | descendant parent child parentIh childIh =>
      have whole : Derives level (descendant parent child)
          (wrapped 0 (parent.displayTokens ++ .vim '>' :: child.displayTokens)) := by
        simpa [wrapped, displayTokens] using derives
      rcases whole.of_display rfl rfl with ⟨within, parentDerives, childDerives⟩
      rcases childIh childDerives with ⟨childPrintable, childPrints⟩
      exact ⟨⟨(parentIh parentDerives).1, childPrintable,
        (printsAt_eq (by decide) (by decide)).mp childPrints⟩, within rfl⟩
  | and left right leftIh rightIh =>
      have whole : Derives level (and left right)
          (wrapped 1 (left.displayTokens ++ .and :: right.displayTokens)) := by
        simpa [wrapped, displayTokens] using derives
      rcases whole.of_display rfl rfl with ⟨-, leftDerives, rightDerives⟩
      rcases leftIh leftDerives with ⟨leftPrintable, leftPrints⟩
      rcases rightIh rightDerives with ⟨rightPrintable, rightPrints⟩
      exact ⟨⟨leftPrintable, rightPrintable, (printsAt_eq (by decide) (by decide)).mp leftPrints,
        (printsAt_eq (by decide) (by decide)).mp rightPrints⟩, trivial⟩
  | or left right leftIh rightIh =>
      have whole : Derives level (or left right)
          (wrapped 1 (left.displayTokens ++ .or :: right.displayTokens)) := by
        simpa [wrapped, displayTokens] using derives
      rcases whole.of_display rfl rfl with ⟨-, leftDerives, rightDerives⟩
      rcases leftIh leftDerives with ⟨leftPrintable, leftPrints⟩
      rcases rightIh rightDerives with ⟨rightPrintable, rightPrints⟩
      exact ⟨⟨leftPrintable, rightPrintable, (printsAt_eq (by decide) (by decide)).mp leftPrints,
        (printsAt_eq (by decide) (by decide)).mp rightPrints⟩, trivial⟩

/-! ## Printing and parsing -/

/-- The parser only makes identifiers of identifiers. -/
theorem Parses.named {call : Call} {predicate : KeyBindingContextPredicate} {rest : List Char}
    (parses : Parses alphanumeric call predicate rest)
    (before : match call with
      | .operators first _ _ => first.Named alphanumeric
      | _ => True) : predicate.Named alphanumeric := by
  induction parses with
  | expr _ _ operandNamed operatorsNamed => exact operatorsNamed (operandNamed trivial)
  | operator _ _ constructs _ operandNamed operatorsNamed =>
      have operands := operands_of_construct constructs
      exact operatorsNamed (named_of_operands operands before (operandNamed trivial))
  | stop _ => exact before
  | paren _ innerNamed => exact innerNamed trivial
  | not _ operandNamed => exact operandNamed trivial
  | @word next source identifier =>
      right
      have first : (isIdentifierChar alphanumeric next || isVimOperatorChar next) = true := by
        rw [identifier, Bool.true_or]
      have begins : ((next :: source).takeWhile fun c =>
          isIdentifierChar alphanumeric c || isVimOperatorChar c) = next :: source.takeWhile _ :=
        List.takeWhile_cons_of_pos first
      rw [begins]
      exact ⟨next, _, String.toList_ofList, identifier, fun c => List.mem_takeWhile_imp⟩
  | vimOperator vim => exact Or.inl ⟨_, String.toList_singleton _, vim⟩

/-- A parsed predicate is read back from its print just when the print needs no
parentheses that the printer leaves out. -/
theorem parse_display_iff {source : String} {predicate : KeyBindingContextPredicate}
    (parses : parse alphanumeric source = pure predicate) :
    parse alphanumeric predicate.display = pure predicate ↔ predicate.Printable := by
  have named := (parse_eq_pure_iff.1 parses).named trivial
  have spells := spells_display named
  have begins : Gpui.skipWhitespace ([] ++ predicate.display.toList) = predicate.display.toList :=
    spells.skipWhitespace (by simp)
  rw [List.nil_append] at begins
  rw [parse_eq_pure_iff_derives (begins.symm ▸ spells)]
  constructor
  · exact fun derives => (printable_of_derives derives).1
  · intro printable
    refine derives_display named printable ?_
    cases predicate <;> first | trivial | exact Nat.zero_le _

example : (parse .asciiOnly "a > b").run =
    some (.ok (.descendant (.identifier "a") (.identifier "b"))) := by
  decide +kernel

/-- `a > b > c` is read back. -/
theorem parse_display_iff_child :
    parse .asciiOnly (display
      (.descendant (.descendant (.identifier "a") (.identifier "b")) (.identifier "c"))) =
      pure (.descendant (.descendant (.identifier "a") (.identifier "b")) (.identifier "c")) := by
  have parses : (parse .asciiOnly "a > b > c").run = some (.ok
      (.descendant (.descendant (.identifier "a") (.identifier "b")) (.identifier "c"))) := by
    decide +kernel
  exact (parse_display_iff parses).mpr ⟨⟨trivial, trivial, rfl⟩, trivial, rfl⟩

/-- The print of `!(a == b)` is not even a predicate. -/
theorem exists_parse_display_fails :
    ∃ predicate, parse .asciiOnly "!(a == b)" = pure predicate ∧
      predicate.display = "!a == b" ∧ parse .asciiOnly predicate.display ≠ pure predicate := by
  have parses : (parse .asciiOnly "!(a == b)").run = some (.ok (.not (.equal "a" "b"))) := by
    decide +kernel
  have fails : (parse .asciiOnly "!a == b").run = some (.error .operandsOfEqMustBeIdentifiers) := by
    decide +kernel
  have prints : display (.not (.equal "a" "b")) = "!a == b" := by decide +kernel
  refine ⟨.not (.equal "a" "b"), parses, prints, fun parsesPrint => ?_⟩
  rw [prints] at parsesPrint
  exact throw_ne_pure (fails.symm.trans parsesPrint)

example : display (.not (.identifier "a")) = "!a" := by
  decide +kernel

end KeyBindingContextPredicate

end Gpui
