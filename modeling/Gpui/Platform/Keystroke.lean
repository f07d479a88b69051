import Gpui.Keymap.Core

/-!
# Reading and writing keystrokes

A keystroke is written as modifiers and a key with dashes between them, and after
`->` the character it types.
-/

namespace Gpui

/-- The platforms that the crate is built for. -/
inductive TargetOs where
  | macos
  | linux
  | freebsd
  | windows
deriving DecidableEq, Repr

structure InvalidKeystrokeError where
  keystroke : String
deriving DecidableEq, Repr

/-- A comparison with a word in lower case. -/
def eqIgnoreAsciiCase (component : List Char) (word : String) : Bool :=
  component.map Char.toLower = word.toList

def Modifiers.setSecondary (self : Modifiers) : TargetOs → Modifiers
  | .macos => { self with platform := true }
  | .linux | .freebsd | .windows => { self with control := true }

namespace Keystroke

/-- The modifiers after a component that names one of them. -/
def setModifier (os : TargetOs) (modifiers : Modifiers) (component : List Char) :
    Option Modifiers :=
  if eqIgnoreAsciiCase component "ctrl" then some { modifiers with control := true }
  else if eqIgnoreAsciiCase component "alt" then some { modifiers with alt := true }
  else if eqIgnoreAsciiCase component "shift" then some { modifiers with shift := true }
  else if eqIgnoreAsciiCase component "fn" then some { modifiers with function := true }
  else if eqIgnoreAsciiCase component "secondary" then some (modifiers.setSecondary os)
  else if eqIgnoreAsciiCase component "cmd" || eqIgnoreAsciiCase component "super" ||
      eqIgnoreAsciiCase component "win" then some { modifiers with platform := true }
  else none

/-- What the loop of `parse` has read. -/
structure Reading where
  modifiers : Modifiers := {}
  key : Option (List Char) := none
  keyChar : Option (List Char) := none
deriving DecidableEq, Repr

/-- The last component, a single upper-case letter of which stands for shift. -/
def readKey (reading : Reading) (component : List Char) : Reading :=
  match component with
  | [c] =>
      if c.isUpper then
        { reading with
          modifiers := { reading.modifiers with shift := true }, key := some [c.toLower] }
      else { reading with key := some [c.toLower] }
  | _ => { reading with key := some (component.map Char.toLower) }

/-- The loop of `parse` over the components of a source. -/
def readComponents (os : TargetOs) (source : String) :
    List (List Char) → Reading → Except InvalidKeystrokeError Reading
  | [], reading => .ok reading
  | component :: components, reading =>
      match setModifier os reading.modifiers component with
      | some modifiers => readComponents os source components { reading with modifiers }
      | none =>
          match components with
          | [] => .ok (readKey reading component)
          | next :: components =>
              if next.isEmpty && source.toList.getLast? = some '-' then
                .ok { reading with key := some ['-'] }
              else if 1 < next.length && next.head? = some '>' then
                readComponents os source components
                  { reading with key := some component, keyChar := some next.tail }
              else .error ⟨source⟩

/-- The modifier that becomes the key where no other key is given. -/
def takeModifier (modifiers : Modifiers) : Option (Modifiers × String) :=
  if modifiers.shift then some ({ modifiers with shift := false }, "shift")
  else if modifiers.control then some ({ modifiers with control := false }, "control")
  else if modifiers.alt then some ({ modifiers with alt := false }, "alt")
  else if modifiers.platform then some ({ modifiers with platform := false }, "platform")
  else if modifiers.function then some ({ modifiers with function := false }, "function")
  else none

def finish (source : String) (reading : Reading) : Except InvalidKeystrokeError Keystroke :=
  match reading.key with
  | some key =>
      .ok ⟨reading.modifiers, String.ofList key, reading.keyChar.map String.ofList⟩
  | none =>
      match takeModifier reading.modifiers with
      | some (modifiers, key) => .ok ⟨modifiers, key, reading.keyChar.map String.ofList⟩
      | none => .error ⟨source⟩

def parse (os : TargetOs) (source : String) : Except InvalidKeystrokeError Keystroke := do
  let reading ← readComponents os source (source.toList.splitOn '-') {}
  finish source reading

def platformPrefix : TargetOs → String
  | .macos => "cmd-"
  | .linux | .freebsd => "super-"
  | .windows => "win-"

/-- What is pushed for a modifier. -/
def pushed (pressed : Bool) (modifier : String) : String :=
  if pressed then modifier else ""

def unparse (os : TargetOs) (self : Keystroke) : String :=
  pushed self.modifiers.function "fn-" ++ pushed self.modifiers.control "ctrl-" ++
    pushed self.modifiers.alt "alt-" ++ pushed self.modifiers.platform (platformPrefix os) ++
    pushed self.modifiers.shift "shift-" ++ self.key

/-! ## Components -/

def modifierWords : List String :=
  ["ctrl", "alt", "shift", "fn", "secondary", "cmd", "super", "win"]

def isModifier (component : List Char) : Bool :=
  modifierWords.any (eqIgnoreAsciiCase component)

/-- Components that the loop reads without an error: modifiers, and keys with the
characters they type. -/
inductive Units : List (List Char) → Prop
  | nil : Units []
  | modifier {component rest} :
      isModifier component = true → Units rest → Units (component :: rest)
  | typedKey {key c keyChar rest} :
      isModifier key = false → Units rest → Units (key :: ('>' :: c :: keyChar) :: rest)

/-- Where a key is given with the character it types and only modifiers follow, it has no
upper-case letter. -/
def KeepsCase (source : String) : Prop :=
  ∀ {front : List (List Char)} {key : List Char} {c : Char} {keyChar : List Char}
    {modifiers : List (List Char)},
    source.toList.splitOn '-' = front ++ key :: ('>' :: c :: keyChar) :: modifiers →
    Units front → isModifier key = false →
    (∀ component ∈ modifiers, isModifier component = true) →
    ∀ letter ∈ key, letter.isUpper = false

theorem setModifier_eq_none_iff {os : TargetOs} {modifiers : Modifiers}
    {component : List Char} :
    setModifier os modifiers component = none ↔ isModifier component = false := by
  simp only [setModifier, isModifier, modifierWords, List.any_cons, List.any_nil]
  split_ifs <;> simp_all
  next platform =>
    intro notCmd notSuper
    simpa [notCmd, notSuper] using platform

theorem isModifier_of_setModifier {os : TargetOs} {modifiers after : Modifiers}
    {component : List Char} (sets : setModifier os modifiers component = some after) :
    isModifier component = true := by
  rw [← Bool.not_eq_false, ← setModifier_eq_none_iff, sets]
  exact Option.some_ne_none after

theorem setModifier_eq_some (os : TargetOs) {component : List Char}
    (named : isModifier component = true) (modifiers : Modifiers) :
    ∃ after, setModifier os modifiers component = some after := by
  apply Option.ne_none_iff_exists'.mp
  intro fails
  rw [setModifier_eq_none_iff.1 fails] at named
  cases named

theorem map_toLower_eq_self {component : List Char} :
    component.map Char.toLower = component ↔ ∀ letter ∈ component, letter.isUpper = false := by
  constructor
  · intro same letter member
    rw [← same] at member
    rcases List.mem_map.mp member with ⟨upper, _, rfl⟩
    exact Char.isUpper_toLower_eq_false upper
  · intro lower
    have each : ∀ letter ∈ component, letter.toLower = letter := by
      intro letter member
      apply Char.toLower_eq_of_not_isUpper
      rw [lower letter member]
      exact Bool.false_ne_true
    exact (List.map_congr_left each).trans (List.map_id' component)

theorem map_toLower_map_toLower (component : List Char) :
    (component.map Char.toLower).map Char.toLower = component.map Char.toLower := by
  rw [map_toLower_eq_self]
  intro letter member
  rcases List.mem_map.mp member with ⟨upper, _, rfl⟩
  exact Char.isUpper_toLower_eq_false upper

theorem isModifier_map_toLower (component : List Char) :
    isModifier (component.map Char.toLower) = isModifier component := by
  have each : eqIgnoreAsciiCase (component.map Char.toLower) = eqIgnoreAsciiCase component := by
    funext word
    rw [eqIgnoreAsciiCase, eqIgnoreAsciiCase, map_toLower_map_toLower]
  rw [isModifier, isModifier, each]

theorem dash_not_mem_map_toLower {component : List Char} (plain : '-' ∉ component) :
    '-' ∉ component.map Char.toLower := by
  intro member
  rcases List.mem_map.mp member with ⟨letter, inside, lower⟩
  by_cases upper : letter.isUpper = true
  · have lowers := Char.isLower_toLower_eq_isAlpha letter
    rw [lower, Char.isAlpha, upper] at lowers
    cases lowers
  · rw [Char.toLower_eq_of_not_isUpper upper] at lower
    exact plain (lower ▸ inside)

theorem key_readKey (reading : Reading) (component : List Char) :
    (readKey reading component).key = some (component.map Char.toLower) := by
  rw [readKey.eq_def]
  split
  · split <;> rfl
  · rfl

theorem readKey_eq_of_lower {component : List Char}
    (lower : component.map Char.toLower = component) (reading : Reading) :
    readKey reading component = { reading with key := some component } := by
  rw [readKey.eq_def]
  split
  next c =>
    have notUpper := map_toLower_eq_self.1 lower c List.mem_cons_self
    rw [if_neg (Bool.not_eq_true _ ▸ notUpper)]
    exact congrArg (fun key => { reading with key := some key }) lower
  next => rw [lower]

/-! ## Where the key comes from -/

/-- The key after the loop has read the components, and the key before. -/
inductive KeyRead : List (List Char) → Option (List Char) → Option (List Char) → Prop
  | kept {components key} : (∀ component ∈ components, isModifier component = true) →
      KeyRead components key key
  | dash {components before} : KeyRead components before (some ['-'])
  | last {components before component} : component ∈ components →
      isModifier component = false →
      KeyRead components before (some (component.map Char.toLower))
  | typed {front key c keyChar modifiers before} : Units front → isModifier key = false →
      (∀ component ∈ modifiers, isModifier component = true) →
      KeyRead (front ++ key :: ('>' :: c :: keyChar) :: modifiers) before (some key)

theorem KeyRead.modifier {component : List Char} {components : List (List Char)}
    {before after : Option (List Char)} (named : isModifier component = true)
    (read : KeyRead components before after) : KeyRead (component :: components) before after := by
  cases read with
  | kept all => exact .kept (List.forall_mem_cons.mpr ⟨named, all⟩)
  | dash => exact .dash
  | last member notNamed => exact .last (List.mem_cons_of_mem _ member) notNamed
  | typed units notNamed all =>
      rw [← List.cons_append]
      exact .typed (.modifier named units) notNamed all

theorem KeyRead.typedKey {key : List Char} {c : Char} {keyChar : List Char}
    {components : List (List Char)} {before after : Option (List Char)}
    (notNamed : isModifier key = false) (read : KeyRead components (some key) after) :
    KeyRead (key :: ('>' :: c :: keyChar) :: components) before after := by
  cases read with
  | kept all => exact @KeyRead.typed [] _ _ _ _ _ .nil notNamed all
  | dash => exact .dash
  | last member otherNotNamed =>
      exact .last (List.mem_cons_of_mem _ (List.mem_cons_of_mem _ member)) otherNotNamed
  | typed units otherNotNamed all =>
      rw [← List.cons_append, ← List.cons_append]
      exact .typed (.typedKey notNamed units) otherNotNamed all

variable {os : TargetOs} {source : String}

theorem readComponents_modifier {reading : Reading} {component : List Char}
    {modifiers : Modifiers} (sets : setModifier os reading.modifiers component = some modifiers)
    (components : List (List Char)) :
    readComponents os source (component :: components) reading =
      readComponents os source components { reading with modifiers } := by
  rw [readComponents.eq_def]
  simp only [sets]

theorem readComponents_last {component : List Char} (notNamed : isModifier component = false)
    (reading : Reading) :
    readComponents os source [component] reading = .ok (readKey reading component) := by
  rw [readComponents]
  simp only [setModifier_eq_none_iff.2 notNamed]

theorem readComponents_dash {component : List Char} (notNamed : isModifier component = false)
    (ends : source.toList.getLast? = some '-') (components : List (List Char))
    (reading : Reading) :
    readComponents os source (component :: [] :: components) reading =
      .ok { reading with key := some ['-'] } := by
  rw [readComponents]
  simp [setModifier_eq_none_iff.2 notNamed, ends]

theorem readComponents_typedKey {key : List Char} (notNamed : isModifier key = false) (c : Char)
    (keyChar : List Char) (components : List (List Char)) (reading : Reading) :
    readComponents os source (key :: ('>' :: c :: keyChar) :: components) reading =
      readComponents os source components
        { reading with key := some key, keyChar := some (c :: keyChar) } := by
  rw [readComponents]
  simp [setModifier_eq_none_iff.2 notNamed]

theorem eq_typed {next : List Char}
    (typed : (decide (1 < next.length) && decide (next.head? = some '>')) = true) :
    ∃ c keyChar, next = '>' :: c :: keyChar := by
  rcases Bool.and_eq_true_iff.mp typed with ⟨long, child⟩
  match next with
  | [] => cases child
  | [_] => exact absurd (of_decide_eq_true long) (lt_irrefl 1)
  | first :: c :: keyChar =>
      rcases Option.some.inj (of_decide_eq_true child) with rfl
      exact ⟨c, keyChar, rfl⟩

theorem keyRead_readComponents {components : List (List Char)} {reading result : Reading}
    (reads : readComponents os source components reading = .ok result) :
    KeyRead components reading.key result.key := by
  induction components, reading using readComponents.induct os source with
  | case1 reading =>
      cases reads
      exact .kept (by simp)
  | case2 reading component components modifiers sets ih =>
      rw [readComponents_modifier sets] at reads
      exact KeyRead.modifier (isModifier_of_setModifier sets) (ih reads)
  | case3 reading component fails =>
      have notNamed := setModifier_eq_none_iff.1 fails
      rw [readComponents_last notNamed] at reads
      cases reads
      rw [key_readKey]
      exact .last List.mem_cons_self notNamed
  | case4 reading component fails next components ends =>
      rcases Bool.and_eq_true_iff.mp ends with ⟨empty, ends⟩
      rw [List.isEmpty_iff.mp empty,
        readComponents_dash (setModifier_eq_none_iff.1 fails) (of_decide_eq_true ends)] at reads
      cases reads
      exact .dash
  | case5 reading component fails next components _ typed ih =>
      rcases eq_typed typed with ⟨c, keyChar, rfl⟩
      have notNamed := setModifier_eq_none_iff.1 fails
      rw [readComponents_typedKey notNamed] at reads
      exact (ih reads).typedKey notNamed
  | case6 reading component fails next components notDash notTyped =>
      rw [readComponents] at reads
      simp only [fails, notDash, notTyped] at reads
      cases reads

variable (os source)

theorem readComponents_units {front : List (List Char)} (units : Units front)
    (rest : List (List Char)) (reading : Reading) :
    ∃ middle, readComponents os source (front ++ rest) reading =
      readComponents os source rest middle := by
  induction units generalizing reading with
  | nil => exact ⟨reading, rfl⟩
  | modifier named _ ih =>
      rcases setModifier_eq_some os named reading.modifiers with ⟨modifiers, sets⟩
      rcases ih { reading with modifiers } with ⟨middle, same⟩
      exact ⟨middle, (readComponents_modifier sets _).trans same⟩
  | typedKey notNamed _ ih =>
      rcases ih _ with ⟨middle, same⟩
      exact ⟨middle, (readComponents_typedKey notNamed _ _ _ _).trans same⟩

theorem readComponents_modifiers {components : List (List Char)}
    (all : ∀ component ∈ components, isModifier component = true) (reading : Reading) :
    ∃ modifiers, readComponents os source components reading =
      .ok { reading with modifiers } := by
  induction components generalizing reading with
  | nil => exact ⟨reading.modifiers, rfl⟩
  | cons component components ih =>
      rcases List.forall_mem_cons.mp all with ⟨named, all⟩
      rcases setModifier_eq_some os named reading.modifiers with ⟨modifiers, sets⟩
      rw [readComponents_modifier sets]
      exact ih all { reading with modifiers }

theorem readComponents_typed {front : List (List Char)} {key : List Char} {c : Char}
    {keyChar : List Char} {modifiers : List (List Char)} (units : Units front)
    (notNamed : isModifier key = false)
    (all : ∀ component ∈ modifiers, isModifier component = true) (reading : Reading) :
    ∃ result, readComponents os source (front ++ key :: ('>' :: c :: keyChar) :: modifiers)
      reading = .ok result ∧ result.key = some key := by
  rcases readComponents_units os source units (key :: ('>' :: c :: keyChar) :: modifiers)
    reading with ⟨middle, same⟩
  rcases readComponents_modifiers os source all
    { middle with key := some key, keyChar := some (c :: keyChar) } with ⟨after, returns⟩
  rw [same, readComponents_typedKey notNamed, returns]
  exact ⟨_, rfl, rfl⟩

variable {os source}

/-! ## Reading what is written -/

theorem readComponents_pushed (word : List Char) {modifier : String} {after : Modifiers}
    {reading : Reading} (spelled : modifier.toList = word ++ ['-']) (plain : '-' ∉ word)
    (sets : setModifier os reading.modifiers word = some after) (pressed : Bool)
    (rest : List Char) :
    readComponents os source (((pushed pressed modifier).toList ++ rest).splitOn '-') reading =
      readComponents os source (rest.splitOn '-')
        { reading with modifiers := if pressed then after else reading.modifiers } := by
  cases pressed with
  | false => rfl
  | true =>
      have split : ((pushed true modifier).toList ++ rest).splitOn '-' =
          word :: rest.splitOn '-' := by
        change (modifier.toList ++ rest).splitOn '-' = _
        rw [spelled, List.append_assoc]
        exact List.splitOn_append_cons_self_of_not_mem plain rest
      rw [split, readComponents_modifier sets]
      rfl

theorem readComponents_platformPrefix (reading : Reading) (pressed : Bool) (rest : List Char) :
    readComponents os source
        (((pushed pressed (platformPrefix os)).toList ++ rest).splitOn '-') reading =
      readComponents os source (rest.splitOn '-') { reading with
        modifiers := if pressed then { reading.modifiers with platform := true }
          else reading.modifiers } := by
  cases os with
  | macos => exact readComponents_pushed "cmd".toList rfl (by decide) rfl pressed rest
  | linux | freebsd =>
      exact readComponents_pushed "super".toList rfl (by decide) rfl pressed rest
  | windows => exact readComponents_pushed "win".toList rfl (by decide) rfl pressed rest

theorem readComponents_unparse (self : Keystroke) :
    readComponents os source ((self.unparse os).toList.splitOn '-') {} =
      readComponents os source (self.key.toList.splitOn '-') { modifiers := self.modifiers } := by
  rcases self with ⟨modifiers, key, keyChar⟩
  simp only [unparse, String.toList_append, List.append_assoc]
  rw [readComponents_pushed "fn".toList rfl (by decide) rfl,
    readComponents_pushed "ctrl".toList rfl (by decide) rfl,
    readComponents_pushed "alt".toList rfl (by decide) rfl,
    readComponents_platformPrefix,
    readComponents_pushed "shift".toList rfl (by decide) rfl]
  rcases modifiers with ⟨_ | _, _ | _, _ | _, _ | _, _ | _⟩ <;> rfl

theorem dash_not_mem_of_mem_splitOn {source component : List Char}
    (member : component ∈ source.splitOn '-') : '-' ∉ component := by
  induction source generalizing component with
  | nil =>
      rw [List.splitOn_nil, List.mem_singleton] at member
      rw [member]
      exact List.not_mem_nil
  | cons c source ih =>
      rw [List.splitOn_cons_eq_if_modifyHead] at member
      split at member
      · rcases List.mem_cons.mp member with rfl | member
        · exact List.not_mem_nil
        · exact ih member
      · next other =>
          cases split : source.splitOn '-' with
          | nil => exact absurd split (List.splitOn_ne_nil _ _)
          | cons first rest =>
              rw [split] at member ih
              rcases List.mem_cons.mp member with rfl | member
              · intro inside
                rcases List.mem_cons.mp inside with rfl | inside
                · exact other (beq_self_eq_true _)
                · exact ih List.mem_cons_self inside
              · exact ih (List.mem_cons_of_mem _ member)

theorem parse_eq_ok_iff {keystroke : Keystroke} :
    parse os source = .ok keystroke ↔
      ∃ reading, readComponents os source (source.toList.splitOn '-') {} = .ok reading ∧
        finish source reading = .ok keystroke := by
  rw [parse]
  cases readComponents os source (source.toList.splitOn '-') {} with
  | error => simp [bind, Except.bind]
  | ok reading => simp [bind, Except.bind]

/-- What is written for a keystroke reads as its modifiers and key. -/
def RoundTrips (os : TargetOs) (self : Keystroke) : Prop :=
  ∃ keystroke, parse os (self.unparse os) = .ok keystroke ∧
    keystroke.modifiers = self.modifiers ∧ keystroke.key = self.key

theorem readComponents_unparse_key {self : Keystroke} (plain : '-' ∉ self.key.toList) :
    readComponents os source ((self.unparse os).toList.splitOn '-') {} =
      readComponents os source [self.key.toList] { modifiers := self.modifiers } := by
  rw [readComponents_unparse, List.splitOn_eq_singleton plain]

theorem finish_of_key {reading : Reading} {key : List Char} (read : reading.key = some key) :
    finish source reading =
      .ok ⟨reading.modifiers, String.ofList key, reading.keyChar.map String.ofList⟩ := by
  simp only [finish, read]

theorem parse_unparse_key {self : Keystroke} (plain : '-' ∉ self.key.toList)
    (notNamed : isModifier self.key.toList = false) :
    parse os (self.unparse os) =
      finish (self.unparse os) (readKey { modifiers := self.modifiers } self.key.toList) := by
  rw [parse, readComponents_unparse_key plain, readComponents_last notNamed]
  rfl

theorem roundTrips_key {modifiers : Modifiers} {key : String} {keyChar : Option String}
    (plain : '-' ∉ key.toList) (notNamed : isModifier key.toList = false)
    (lower : key.toList.map Char.toLower = key.toList) :
    RoundTrips os ⟨modifiers, key, keyChar⟩ := by
  have parses := @parse_unparse_key os ⟨modifiers, key, keyChar⟩ plain notNamed
  refine ⟨⟨modifiers, key, none⟩, ?_, rfl, rfl⟩
  rw [parses, readKey_eq_of_lower lower, finish_of_key rfl, String.ofList_toList]
  rfl

theorem lower_of_roundTrips {self : Keystroke} (plain : '-' ∉ self.key.toList)
    (notNamed : isModifier self.key.toList = false) (returns : self.RoundTrips os) :
    ∀ letter ∈ self.key.toList, letter.isUpper = false := by
  rcases returns with ⟨keystroke, parses, _, sameKey⟩
  rw [parse_unparse_key plain notNamed, finish_of_key (key_readKey _ _)] at parses
  rw [← map_toLower_eq_self]
  have key : String.ofList (self.key.toList.map Char.toLower) = self.key :=
    (congrArg Keystroke.key (Except.ok.inj parses)).trans sameKey
  exact String.toList_ofList.symm.trans (congrArg String.toList key)

theorem roundTrips_dash {modifiers : Modifiers} {keyChar : Option String} :
    RoundTrips os ⟨modifiers, "-", keyChar⟩ := by
  have ends : (unparse os ⟨modifiers, "-", keyChar⟩).toList.getLast? = some '-' := by
    simp only [unparse, String.toList_append]
    change (_ ++ ['-']).getLast? = some '-'
    exact List.getLast?_concat
  refine ⟨⟨modifiers, "-", none⟩, ?_, rfl, rfl⟩
  have split : "-".toList.splitOn '-' = [[], []] := rfl
  rw [parse_eq_ok_iff, readComponents_unparse]
  change ∃ reading, readComponents os _ ("-".toList.splitOn '-') _ = .ok reading ∧ _
  rw [split, readComponents_dash rfl ends]
  exact ⟨_, rfl, rfl⟩

/-- A keystroke with a modifier for its key is written with that modifier last, which
the parser takes for the key again. -/
theorem roundTrips_modifier (pressed : Modifiers) {modifiers : Modifiers} {key : String}
    {keyChar : Option String} (plain : '-' ∉ key.toList)
    (sets : setModifier os modifiers key.toList = some pressed)
    (takes : takeModifier pressed = some (modifiers, key)) :
    RoundTrips os ⟨modifiers, key, keyChar⟩ := by
  refine ⟨⟨modifiers, key, none⟩, ?_, rfl, rfl⟩
  rw [parse, readComponents_unparse_key plain, readComponents_modifier sets]
  change finish _ ⟨pressed, none, none⟩ = _
  simp only [finish, takes]
  rfl

theorem roundTrips_takeModifier {modifiers pressed : Modifiers} {key : String}
    {keyChar : Option String} (takes : takeModifier pressed = some (modifiers, key)) :
    RoundTrips os ⟨modifiers, key, keyChar⟩ := by
  rcases pressed with ⟨control, alt, shift, platform, function⟩
  cases shift with
  | true =>
      rcases Option.some.inj takes with ⟨⟩
      exact roundTrips_modifier ⟨control, alt, true, platform, function⟩
        (by decide : '-' ∉ "shift".toList) rfl rfl
  | false =>
  cases control with
  | true =>
      rcases Option.some.inj takes with ⟨⟩
      exact roundTrips_key (by decide : '-' ∉ "control".toList) rfl rfl
  | false =>
  cases alt with
  | true =>
      rcases Option.some.inj takes with ⟨⟩
      exact roundTrips_modifier ⟨false, true, false, platform, function⟩
        (by decide : '-' ∉ "alt".toList) rfl rfl
  | false =>
  cases platform with
  | true =>
      rcases Option.some.inj takes with ⟨⟩
      exact roundTrips_key (by decide : '-' ∉ "platform".toList) rfl rfl
  | false =>
  cases function with
  | true =>
      rcases Option.some.inj takes with ⟨⟩
      exact roundTrips_key (by decide : '-' ∉ "function".toList) rfl rfl
  | false => cases takes

/-- An accepted source reads back from what is written for its keystroke exactly when it
does not give an upper-case key with the character it types. -/
theorem parse_unparse_iff {keystroke : Keystroke} (parses : parse os source = .ok keystroke) :
    (∃ again, parse os (keystroke.unparse os) = .ok again ∧
      again.modifiers = keystroke.modifiers ∧ again.key = keystroke.key) ↔
    KeepsCase source := by
  rcases parse_eq_ok_iff.1 parses with ⟨reading, reads, finishes⟩
  have plain : ∀ component ∈ source.toList.splitOn '-', '-' ∉ component :=
    fun _ => dash_not_mem_of_mem_splitOn
  constructor
  · intro returns front key c keyChar modifiers components units notNamed all
    rw [components] at reads plain
    rcases readComponents_typed os source units notNamed all {} with ⟨result, same, key'⟩
    rw [same] at reads
    cases reads
    rw [finish_of_key key'] at finishes
    cases finishes
    have inside : key ∈ front ++ key :: ('>' :: c :: keyChar) :: modifiers :=
      List.mem_append_right _ List.mem_cons_self
    have lower := lower_of_roundTrips (by simpa using plain key inside) (by simpa using notNamed)
      returns
    simpa using lower
  · intro keeps
    have read := keyRead_readComponents reads
    cases key' : reading.key with
    | none =>
        simp only [finish, key'] at finishes
        split at finishes
        next takes =>
          cases finishes
          exact roundTrips_takeModifier takes
        next => cases finishes
    | some key =>
        rw [finish_of_key key'] at finishes
        cases finishes
        rw [key'] at read
        generalize split : source.toList.splitOn '-' = components at read plain
        cases read with
        | dash => exact roundTrips_dash
        | last member notNamed =>
            apply roundTrips_key
            · rw [String.toList_ofList]
              exact dash_not_mem_map_toLower (plain _ member)
            · rw [String.toList_ofList, isModifier_map_toLower]
              exact notNamed
            · rw [String.toList_ofList]
              exact map_toLower_map_toLower _
        | typed units notNamed all =>
            apply roundTrips_key
            · rw [String.toList_ofList]
              exact plain key (List.mem_append_right _ List.mem_cons_self)
            · rw [String.toList_ofList]
              exact notNamed
            · rw [String.toList_ofList]
              exact map_toLower_eq_self.2 (keeps split units notNamed all)

/-- `a->b` reads back from `a`. -/
theorem parse_unparse_iff_typed :
    parse .macos "ctrl-a->b" = .ok ⟨{ control := true }, "a", some "b"⟩ ∧
      ((∃ again, parse .macos (unparse .macos ⟨{ control := true }, "a", some "b"⟩) =
        .ok again ∧ again.modifiers = { control := true } ∧ again.key = "a") ↔
      KeepsCase "ctrl-a->b") := by
  have parses : parse .macos "ctrl-a->b" = .ok ⟨{ control := true }, "a", some "b"⟩ := rfl
  exact ⟨parses, parse_unparse_iff parses⟩

/-- `A->b` is read as the key `A`, which is written `A`, which is shift and `a`. -/
theorem exists_parse_unparse_differs :
    ∃ keystroke again, parse .macos "A->b" = .ok keystroke ∧
      parse .macos (keystroke.unparse .macos) = .ok again ∧
      again.modifiers ≠ keystroke.modifiers ∧ again.key ≠ keystroke.key := by
  refine ⟨⟨{}, "A", some "b"⟩, ⟨{ shift := true }, "a", none⟩, rfl, rfl, ?_, ?_⟩
  · decide
  · decide

end Keystroke

end Gpui
