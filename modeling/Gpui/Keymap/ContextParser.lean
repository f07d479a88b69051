import Gpui.Keymap.Lexical

/-!
# Parsing key contexts

The parser reads an entry a round, and every character but those of identifiers,
whitespace and `=` stops it where it is: the rounds go on without end.  The model
gives up after a number of rounds; the parser itself only returns if some number is
enough.
-/

namespace Gpui

namespace KeyContext

variable (alphanumeric : Alphanumeric)

def add (self : KeyContext) (identifier : String) : KeyContext :=
  if self.contains identifier then self else ⟨self.entries ++ [⟨identifier, none⟩]⟩

def set (self : KeyContext) (key value : String) : KeyContext :=
  if self.contains key then self else ⟨self.entries ++ [⟨key, some value⟩]⟩

/-- What a call of `parse_expr` on a nonempty source passes to the next. -/
def parseEntry (source : List Char) (context : KeyContext) : List Char × KeyContext :=
  let key := source.takeWhile (isIdentifierChar alphanumeric)
  let source := skipWhitespace (source.drop key.length)
  match source with
  | '=' :: suffix =>
      let source := skipWhitespace suffix
      let value := source.takeWhile (isIdentifierChar alphanumeric)
      (skipWhitespace (source.drop value.length),
        context.set (String.ofList key) (String.ofList value))
  | _ => (source, context.add (String.ofList key))

/-- `none` when the rounds do not suffice. -/
def parseExpr : Nat → List Char → KeyContext → Option KeyContext
  | 0, _, _ => none
  | rounds + 1, source, context =>
      if source.isEmpty then some context
      else
        let (source, context) := parseEntry alphanumeric source context
        parseExpr rounds source context

def parse (rounds : Nat) (source : String) : Option KeyContext :=
  parseExpr alphanumeric rounds (skipWhitespace source.toList) ⟨[]⟩

/-- The parser returns, after however many rounds. -/
def ParseReturns (source : String) : Prop :=
  ∃ rounds context, parse alphanumeric rounds source = some context

/-! ## What a round reads -/

/-- The characters that a round can read over. -/
def Readable (c : Char) : Prop :=
  isIdentifierChar alphanumeric c = true ∨ isWhitespace c = true ∨ c = '='

/-- The source begins with readable characters, and the rest follows. -/
def ReadsTo (source rest : List Char) : Prop :=
  ∃ front, source = front ++ rest ∧ ∀ c ∈ front, Readable alphanumeric c

variable {alphanumeric}

theorem ReadsTo.trans {source middle rest : List Char}
    (front : ReadsTo alphanumeric source middle) (back : ReadsTo alphanumeric middle rest) :
    ReadsTo alphanumeric source rest := by
  rcases front with ⟨first, rfl, firstReadable⟩
  rcases back with ⟨second, rfl, secondReadable⟩
  refine ⟨first ++ second, (List.append_assoc _ _ _).symm, fun c member => ?_⟩
  rcases List.mem_append.mp member with inFirst | inSecond
  · exact firstReadable c inFirst
  · exact secondReadable c inSecond

theorem ReadsTo.skipWhitespace (source : List Char) :
    ReadsTo alphanumeric source (skipWhitespace source) := by
  refine ⟨source.takeWhile isWhitespace, List.takeWhile_append_dropWhile.symm, fun c member => ?_⟩
  exact Or.inr (Or.inl (List.mem_takeWhile_imp member))

variable (alphanumeric) in
/-- An identifier and the whitespace after it. -/
theorem ReadsTo.identifier (source : List Char) :
    ReadsTo alphanumeric source (Gpui.skipWhitespace
      (source.drop (source.takeWhile (isIdentifierChar alphanumeric)).length)) := by
  have split := List.prefix_iff_eq_append.mp
    (List.takeWhile_prefix (l := source) (isIdentifierChar alphanumeric))
  have name : ReadsTo alphanumeric source
      (source.drop (source.takeWhile (isIdentifierChar alphanumeric)).length) :=
    ⟨_, split.symm, fun c member => Or.inl (List.mem_takeWhile_imp member)⟩
  exact name.trans (.skipWhitespace _)

theorem ReadsTo.equals (source : List Char) :
    ReadsTo alphanumeric ('=' :: source) source :=
  ⟨['='], rfl, by simp [Readable]⟩

theorem ReadsTo.length_le {source rest : List Char} (reads : ReadsTo alphanumeric source rest) :
    rest.length ≤ source.length := by
  rcases reads with ⟨front, rfl, -⟩
  simp

theorem ReadsTo.mem {source rest : List Char} (reads : ReadsTo alphanumeric source rest) {c : Char}
    (unreadable : ¬ Readable alphanumeric c) (member : c ∈ source) : c ∈ rest := by
  rcases reads with ⟨front, rfl, readable⟩
  rcases List.mem_append.mp member with inFront | inRest
  · exact absurd (readable c inFront) unreadable
  · exact inRest

theorem ReadsTo.readable {source rest : List Char} (reads : ReadsTo alphanumeric source rest)
    (readable : ∀ c ∈ source, Readable alphanumeric c) : ∀ c ∈ rest, Readable alphanumeric c := by
  rcases reads with ⟨front, rfl, -⟩
  exact fun c member => readable c (List.mem_append_right _ member)

/-- A round reads on, at least over the key and the whitespace after it. -/
theorem parseEntry_readsTo (source : List Char) (context : KeyContext) :
    ReadsTo alphanumeric source (parseEntry alphanumeric source context).1 ∧
      (parseEntry alphanumeric source context).1.length ≤
        (Gpui.skipWhitespace
          (source.drop (source.takeWhile (isIdentifierChar alphanumeric)).length)).length := by
  have key := ReadsTo.identifier alphanumeric source
  simp only [parseEntry]
  split
  next suffix split =>
    rw [split] at key ⊢
    have value := (ReadsTo.equals suffix).trans <| (ReadsTo.skipWhitespace suffix).trans <|
      ReadsTo.identifier alphanumeric _
    exact ⟨key.trans value, value.length_le⟩
  next => exact ⟨key, le_rfl⟩

/-- A round shortens the source if it can read its first character. -/
theorem parseEntry_shortens {c : Char} {source : List Char} (readable : Readable alphanumeric c)
    (context : KeyContext) :
    (parseEntry alphanumeric (c :: source) context).1.length < (c :: source).length := by
  by_cases identifier : isIdentifierChar alphanumeric c = true
  · -- the key is not empty
    refine (parseEntry_readsTo (c :: source) context).2.trans_lt ?_
    rw [List.takeWhile_cons_of_pos identifier, List.length_cons, List.drop_succ_cons]
    refine (length_skipWhitespace_le _).trans_lt ?_
    rw [List.length_drop, List.length_cons]
    omega
  · have noKey : (c :: source).takeWhile (isIdentifierChar alphanumeric) = [] :=
      List.takeWhile_cons_of_neg identifier
    rcases readable with isIdentifier | blank | rfl
    · exact absurd isIdentifier identifier
    · refine (parseEntry_readsTo (c :: source) context).2.trans_lt ?_
      rw [noKey, List.length_nil, List.drop_zero, Gpui.skipWhitespace,
        List.dropWhile_cons_of_pos blank]
      exact Nat.lt_succ_of_le (length_skipWhitespace_le source)
    · have stays : Gpui.skipWhitespace ('=' :: source) = '=' :: source := by
        rw [Gpui.skipWhitespace, List.dropWhile_cons_of_neg (by decide)]
      have value := (ReadsTo.skipWhitespace source).trans (ReadsTo.identifier alphanumeric _)
      simp only [parseEntry, noKey, List.length_nil, List.drop_zero, stays]
      exact Nat.lt_succ_of_le value.length_le

/-! ## When the parser returns -/

theorem parseExpr_returns {source : List Char} (readable : ∀ c ∈ source, Readable alphanumeric c)
    (context : KeyContext) :
    ∃ parsed, parseExpr alphanumeric (source.length + 1) source context = some parsed := by
  suffices more : ∀ rounds, source.length < rounds →
      ∃ parsed, parseExpr alphanumeric rounds source context = some parsed from
    more _ (Nat.lt_succ_self _)
  intro rounds
  induction rounds generalizing source context with
  | zero => nofun
  | succ rounds ih =>
      intro enough
      cases source with
      | nil => exact ⟨context, rfl⟩
      | cons c source =>
          have shorter : (parseEntry alphanumeric (c :: source) context).1.length <
              (c :: source).length := parseEntry_shortens (readable c List.mem_cons_self) context
          have still := (parseEntry_readsTo (c :: source) context).1.readable readable
          exact ih still (parseEntry alphanumeric (c :: source) context).2 (by omega)

/-- An unreadable character is never passed. -/
theorem parseExpr_diverges {c : Char} (unreadable : ¬ Readable alphanumeric c) (rounds : Nat)
    {source : List Char} (member : c ∈ source) (context : KeyContext) :
    parseExpr alphanumeric rounds source context = none := by
  induction rounds generalizing source context with
  | zero => rfl
  | succ rounds ih =>
      cases source with
      | nil => cases member
      | cons first source =>
          have stays := (parseEntry_readsTo (first :: source) context).1.mem unreadable member
          exact ih stays (parseEntry alphanumeric (first :: source) context).2

/-- Parsing returns just when the source has no other characters than those of
identifiers, whitespace and `=`. -/
theorem parse_returns_iff (source : String) :
    ParseReturns alphanumeric source ↔ ∀ c ∈ source.toList, Readable alphanumeric c := by
  have skips : ReadsTo alphanumeric source.toList _ := .skipWhitespace source.toList
  constructor
  · rintro ⟨rounds, context, parses⟩ c member
    by_contra unreadable
    rw [parse, parseExpr_diverges unreadable rounds (skips.mem unreadable member)] at parses
    cases parses
  · intro readable
    rcases parseExpr_returns (skips.readable readable) ⟨[]⟩ with ⟨context, parses⟩
    exact ⟨_, context, parses⟩

/-- A single `!` keeps the parser going forever. -/
theorem exists_parse_diverges : ∃ source, ¬ ParseReturns .asciiOnly source := by
  refine ⟨"!", ?_⟩
  rintro ⟨rounds, context, parses⟩
  have unreadable : ¬ Readable .asciiOnly '!' := by
    rw [Readable]
    decide
  rw [parse, parseExpr_diverges unreadable rounds (by decide) ⟨[]⟩] at parses
  cases parses

end KeyContext

end Gpui
