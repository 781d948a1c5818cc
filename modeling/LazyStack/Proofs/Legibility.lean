import LazyStack.Proofs.Listing
import LazyStack.Proofs.Quotation

/-!
Texts tell values. Plain values and texts in quotes, names after a quote, and lists of them to any depth are written so
that each text has one reading, as long as the options cut nothing off. The text is read from the left: its first
character tells a word, a quote or a list, a word ends before a blank or a bracket, and a quote that could open a text
or a name is settled by what comes after it.
-/

namespace LazyStack

/-- What has a text without quotes. A truth value may be tagged as an integer, and has a text of its own there. -/
inductive Plain
  | null
  | bool (value : Bool)
  | int (value : Int)
  | truth (value : Bool)

@[ext]
structure Word where
  name : String
  filled : name ≠ ""
  letters : name.toList.all isWord

/-- Data by kind, content and shape, apart from domains and identities. A list ends in the first datum that is no
cell. -/
inductive Datum
  | plain (datum : Plain)
  | text (value : String)
  | symbol (word : Word)
  | cell (head tail : Datum)

/-- A value holds a datum: it is tagged as the kind says, and so is all that it is made of. -/
inductive Value.Holds : Value → Datum → Prop
  | null {domain shared identity} : Value.Holds ⟨domain, .null, .null shared, identity⟩ (.plain .null)
  | bool {domain value identity} : Value.Holds ⟨domain, .bool, .bool value, identity⟩ (.plain (.bool value))
  | int {domain value identity} : Value.Holds ⟨domain, .int, .int value, identity⟩ (.plain (.int value))
  | truth {domain value identity} : Value.Holds ⟨domain, .int, .bool value, identity⟩ (.plain (.truth value))
  | text {domain value identity} : Value.Holds ⟨domain, .text, .text value, identity⟩ (.text value)
  | symbol {domain identity} (word : Word) :
      Value.Holds ⟨domain, .symbol, .symbol word.name, identity⟩ (.symbol word)
  | cell {domain head tail identity first rest} :
      Value.Holds head first → Value.Holds tail rest →
      Value.Holds ⟨domain, .cell, .cell head tail, identity⟩ (.cell first rest)

namespace Datum

def nesting : Datum → Nat
  | .cell head tail => max (head.nesting + 1) tail.nesting
  | _ => 0

def length : Datum → Nat
  | .cell _ tail => tail.length + 1
  | _ => 0

def longest : Datum → Nat
  | .cell head tail => max (tail.length + 1) (max head.longest tail.longest)
  | _ => 0

end Datum

def Datum.Short : Datum → Prop
  | .plain (.int value) => IsShort value
  | .cell head tail => head.Short ∧ tail.Short
  | _ => True

/-- The options cut nothing of a datum off. -/
structure TextOptions.Hold (options : TextOptions) (data : Datum) : Prop where
  nesting : data.nesting ≤ options.maxDepth
  longest : data.longest ≤ options.maxItems

def Plain.word : Plain → List Char
  | .null => ['n', 'u', 'l', 'l']
  | .bool true => ['t', 'r', 'u', 'e']
  | .bool false => ['f', 'a', 'l', 's', 'e']
  | .int value => integerDigits value
  | .truth true => ['T', 'r', 'u', 'e']
  | .truth false => ['F', 'a', 'l', 's', 'e']

namespace Datum

def atom : Datum → List Char
  | .plain datum => datum.word
  | .text value => quoteCharacters isPrintable value.toList
  | .symbol word => singleQuote :: word.name.toList
  | .cell _ _ => []

mutual

def print : Datum → List Char
  | .cell head tail => '(' :: (head.print ++ tail.ending)
  | data => data.atom

def ending : Datum → List Char
  | .cell head tail => ' ' :: (head.print ++ tail.ending)
  | .plain .null => [')']
  | data => ' ' :: '.' :: ' ' :: (data.atom ++ [')'])

end

end Datum

section Printing

variable {naming : Naming} {options : TextOptions} {value : Value} {data : Datum}

theorem Value.Holds.text_eq_atom (holds : value.Holds data) (short : data.Short) (atomic : value.tag ≠ .cell)
    (depth : Nat) : value.text naming options depth = .ok (String.ofList data.atom) := by
  cases holds with
  | null => simp [Value.text, Datum.atom, Plain.word]
  | @bool _ value => cases value <;> simp [Value.text, Datum.atom, Plain.word]
  | int =>
      rw [Datum.Short] at short
      simp [Value.text, Payload.bare, Datum.atom, Plain.word, integerText, short]
  | @truth _ value => cases value <;> simp [Value.text, Payload.bare, Datum.atom, Plain.word, boolText]
  | text => simp [Value.text, Datum.atom, quoteText]
  | symbol word =>
      have shown : "'" ++ word.name = String.ofList (singleQuote :: word.name.toList) := by
        rw [← String.toList_inj]
        simp [singleQuote]
      simp [Value.text, Payload.bare, Datum.atom, shown]
  | cell => exact absurd rfl atomic

structure Value.Prints (naming : Naming) (options : TextOptions) (value : Value) (data : Datum) : Prop where
  text {depth : Nat} : depth + data.nesting ≤ options.maxDepth → data.longest ≤ options.maxItems →
    value.text naming options depth = .ok (String.ofList data.print)
  remainder {depth index : Nat} : depth + data.nesting ≤ options.maxDepth + 1 → data.longest ≤ options.maxItems →
    index + data.length ≤ options.maxItems →
    ∃ parts, gathered (value.remainder naming options depth index) = .ok parts ∧
      ∀ shown, (spaced (shown :: parts)).toList ++ [')'] = shown.toList ++ data.ending

theorem Value.Holds.prints_atom (holds : value.Holds data) (short : data.Short) (atomic : value.tag ≠ .cell) :
    value.Prints naming options data := by
  have text (depth : Nat) : value.text naming options depth = .ok (String.ofList data.atom) :=
    holds.text_eq_atom short atomic depth
  refine ⟨fun _ _ => (text _).trans ?_, fun {depth index} _ _ _ => ?_⟩
  · cases holds with
    | cell => exact absurd rfl atomic
    | _ => rfl
  · rw [Value.remainder, if_neg atomic, Value.ending, text]
    by_cases null : value.tag = .null
    · rw [if_pos null]
      refine ⟨[], rfl, fun shown => ?_⟩
      cases holds with
      | null => simp [spaced, Datum.ending]
      | _ => cases null
    · rw [if_neg null]
      refine ⟨[".", String.ofList data.atom], by simp [Except.map], fun shown => ?_⟩
      cases holds with
      | null => exact absurd rfl null
      | cell => exact absurd rfl atomic
      | _ => simp [spaced, Datum.ending]

theorem Value.Prints.cell {domain : DomainId} {head tail : Value} {identity : Nat} {first rest : Datum}
    (headPrints : head.Prints naming options first) (tailPrints : tail.Prints naming options rest) :
    Value.Prints naming options ⟨domain, .cell, .cell head tail, identity⟩ (.cell first rest) := by
  have items : ∀ depth index, depth + first.nesting ≤ options.maxDepth →
      depth + rest.nesting ≤ options.maxDepth + 1 → first.longest ≤ options.maxItems →
      rest.longest ≤ options.maxItems → index + 1 + rest.length ≤ options.maxItems → ∃ parts,
      gathered ((Payload.cell head tail).items naming options depth index) = .ok (String.ofList first.print :: parts) ∧
      (spaced (String.ofList first.print :: parts)).toList ++ [')'] = first.print ++ rest.ending := by
    intro depth index deep nested long longer short
    obtain ⟨parts, gathers, shows⟩ := tailPrints.remainder nested longer short
    refine ⟨parts, ?_, ?_⟩
    · rw [Payload.items_cell, if_pos (by omega), List.singleton_append, headPrints.text deep long, gathered_cons_ok,
        gathers, Except.map]
    · rw [shows, String.toList_ofList]
  refine ⟨fun {depth} deep long => ?_, fun {depth index} deep long short => ?_⟩ <;>
    simp only [Datum.nesting, Datum.longest] at deep long
  · obtain ⟨parts, gathers, shows⟩ := items (depth + 1) 0 (by omega) (by omega) (by omega) (by omega) (by omega)
    have text : "(" ++ spaced (String.ofList first.print :: parts) ++ ")" =
        String.ofList (Datum.cell first rest).print := by
      rw [← String.toList_inj]
      simp [Datum.print, ← shows]
    simp only [Value.text, if_neg (show ¬ options.maxDepth ≤ depth by omega), joined, gathers, Except.map,
      enclosed_ok, ← text, spaced]
  · rw [Datum.length] at short
    obtain ⟨parts, gathers, shows⟩ := items depth index (by omega) (by omega) (by omega) (by omega) (by omega)
    rw [Value.remainder, if_pos rfl]
    refine ⟨_, gathers, fun shown => ?_⟩
    rw [Datum.ending, ← shows]
    simp [spaced]

theorem Value.Holds.prints (naming : Naming) (options : TextOptions) (holds : value.Holds data) (short : data.Short) :
    value.Prints naming options data := by
  induction holds with
  | cell _ _ head tail => exact (head short.1).cell (tail short.2)
  | null => exact Value.Holds.null.prints_atom short nofun
  | bool => exact Value.Holds.bool.prints_atom short nofun
  | int => exact Value.Holds.int.prints_atom short nofun
  | truth => exact Value.Holds.truth.prints_atom short nofun
  | text => exact Value.Holds.text.prints_atom short nofun
  | symbol word => exact (Value.Holds.symbol word).prints_atom short nofun

structure Value.Settles (naming : Naming) (options : TextOptions) (value : Value) (data : Datum) : Prop where
  text {depth : Nat} : depth + data.nesting ≤ options.maxDepth → data.longest ≤ options.maxItems →
    (value.text naming options depth).isOk → data.Short
  remainder {depth index : Nat} : depth + data.nesting ≤ options.maxDepth + 1 → data.longest ≤ options.maxItems →
    index + data.length ≤ options.maxItems →
    (value.remainder naming options depth index).all Except.isOk → data.Short

theorem Value.Holds.settles_atom (holds : value.Holds data) (atomic : value.tag ≠ .cell) :
    value.Settles naming options data := by
  have short {depth : Nat} (shown : (value.text naming options depth).isOk) : data.Short := by
    cases holds with
    | int =>
        by_contra long
        rw [Datum.Short] at long
        simp [Value.text, Payload.bare, integerText, long, Except.isOk, Except.toBool] at shown
    | cell => exact absurd rfl atomic
    | _ => trivial
  refine ⟨fun _ _ => short, fun {depth index} _ _ _ shown => ?_⟩
  rw [Value.remainder, if_neg atomic, Value.ending] at shown
  by_cases null : value.tag = .null
  · cases holds with
    | null => trivial
    | _ => cases null
  · rw [if_neg null, List.all_cons, List.all_cons, Bool.and_eq_true, Bool.and_eq_true] at shown
    exact short shown.2.1

theorem Value.Settles.cell {domain : DomainId} {head tail : Value} {identity : Nat} {first rest : Datum}
    (headSettles : head.Settles naming options first) (tailSettles : tail.Settles naming options rest) :
    Value.Settles naming options ⟨domain, .cell, .cell head tail, identity⟩ (.cell first rest) := by
  have items : ∀ depth index, depth + first.nesting ≤ options.maxDepth →
      depth + rest.nesting ≤ options.maxDepth + 1 → first.longest ≤ options.maxItems →
      rest.longest ≤ options.maxItems → index + 1 + rest.length ≤ options.maxItems →
      ((Payload.cell head tail).items naming options depth index).all Except.isOk →
      (Datum.cell first rest).Short := by
    intro depth index deep nested long longer short shown
    rw [Payload.items_cell, if_pos (by omega), List.singleton_append, List.all_cons, Bool.and_eq_true] at shown
    exact ⟨headSettles.text deep long shown.1, tailSettles.remainder nested longer short shown.2⟩
  refine ⟨fun {depth} deep long shown => ?_, fun {depth index} deep long short shown => ?_⟩ <;>
    simp only [Datum.nesting, Datum.longest] at deep long
  · simp only [Value.text, if_neg (show ¬ options.maxDepth ≤ depth by omega), enclosed, joined, Written.isOk_map,
      Written.isOk_gathered] at shown
    exact items (depth + 1) 0 (by omega) (by omega) (by omega) (by omega) (by omega) shown
  · rw [Datum.length] at short
    rw [Value.remainder, if_pos rfl] at shown
    exact items depth index (by omega) (by omega) (by omega) (by omega) (by omega) shown

theorem Value.Holds.settles (naming : Naming) (options : TextOptions) (holds : value.Holds data) :
    value.Settles naming options data := by
  induction holds with
  | cell _ _ head tail => exact head.cell tail
  | null => exact Value.Holds.null.settles_atom nofun
  | bool => exact Value.Holds.bool.settles_atom nofun
  | int => exact Value.Holds.int.settles_atom nofun
  | truth => exact Value.Holds.truth.settles_atom nofun
  | text => exact Value.Holds.text.settles_atom nofun
  | symbol word => exact (Value.Holds.symbol word).settles_atom nofun

end Printing

section Words

variable {first second : Plain} {value other : Int}

theorem mem_integerDigits {character : Char} (member : character ∈ integerDigits value) :
    character = '-' ∨ character.isDigit := by
  have digit {number : Nat} (digit : character ∈ Nat.toDigits 10 number) : character.isDigit :=
    Nat.isDigit_of_mem_toDigits (by decide) (by decide) digit
  rw [integerDigits] at member
  split at member
  · rcases List.mem_cons.mp member with rfl | further
    · exact .inl rfl
    · exact .inr (digit further)
  · exact .inr (digit member)

theorem toDigits_injective {number other : Nat} (same : Nat.toDigits 10 number = Nat.toDigits 10 other) :
    number = other := by
  rw [← Nat.ofDigitChars_toDigits (b := 10) (n := number) (by decide) (by decide), same,
    Nat.ofDigitChars_toDigits (by decide) (by decide)]

theorem toDigits_ne_minus {number : Nat} {rest : List Char} : Nat.toDigits 10 number ≠ '-' :: rest := by
  intro same
  have digit := Nat.isDigit_of_mem_toDigits (b := 10) (n := number) (c := '-') (by decide) (by decide) (by simp [same])
  exact absurd digit (by decide)

theorem integerDigits_injective (same : integerDigits value = integerDigits other) : value = other := by
  rw [integerDigits, integerDigits] at same
  split at same <;> split at same
  · have equal := toDigits_injective (List.cons.inj same).2
    omega
  · exact absurd same.symm toDigits_ne_minus
  · exact absurd same toDigits_ne_minus
  · have equal := toDigits_injective same
    omega

theorem integerDigits_ne {word : List Char} (letter : word.any fun character => character ≠ '-' && !character.isDigit) :
    word ≠ integerDigits value := by
  rintro rfl
  obtain ⟨character, member, other⟩ := List.any_eq_true.mp letter
  rcases mem_integerDigits member with sign | digit
  · simp [sign] at other
  · simp [digit] at other

namespace Plain

theorem word_injective (same : first.word = second.word) : first = second := by
  rcases first with _ | (_ | _) | value | (_ | _) <;> rcases second with _ | (_ | _) | other | (_ | _) <;>
    first
      | rfl
      | rw [integerDigits_injective same]
      | exact absurd same (integerDigits_ne (by decide))
      | exact absurd same.symm (integerDigits_ne (by decide))
      | exact absurd same (by decide)

theorem mem_word {character : Char} (member : character ∈ first.word) : isWord character ∨ character = '-' := by
  rcases first with _ | (_ | _) | value | (_ | _)
  case int =>
    rcases mem_integerDigits member with sign | digit
    · exact .inr sign
    · exact .inl (by simp [isWord, Char.isAlphanum, digit])
  all_goals
    exact .inl (List.all_eq_true.mp (show List.all _ isWord from rfl) character member)

theorem word_ne_nil : first.word ≠ [] := by
  rcases first with _ | (_ | _) | value | (_ | _)
  case int =>
    rw [word, integerDigits]
    split
    · exact List.cons_ne_nil _ _
    · exact Nat.toDigits_ne_nil
  all_goals exact List.cons_ne_nil _ _

end Plain

end Words

/-- How a text is read from its first character on. -/
inductive Manner
  | bare
  | quoted
  | listed
  deriving DecidableEq

def Manner.of? (character : Char) : Option Manner :=
  if isWord character ∨ character = '-' then some .bare
  else if character = singleQuote ∨ character = doubleQuote then some .quoted
  else if character = '(' then some .listed
  else none

section Bare

variable {word other rest further : List Char} {character : Char}

theorem inert_of_bare (bare : Manner.of? character = some .bare) :
    (¬ IsQuote character ∧ character ≠ backslash) ∧ character ≠ ' ' ∧ character ≠ ')' := by
  refine ⟨⟨?_, ?_⟩, ?_, ?_⟩
  · rintro (rfl | rfl) <;> exact absurd bare (by decide)
  all_goals rintro rfl; exact absurd bare (by decide)

theorem not_ends_of_bare (bare : Manner.of? character = some .bare) : ¬ Ends (character :: rest) := by
  rintro (blank | bracket)
  · exact (inert_of_bare bare).2.1 blank
  · exact (inert_of_bare bare).2.2 bracket

theorem bare_append_inj (bare : ∀ character ∈ word, Manner.of? character = some .bare)
    (plain : ∀ character ∈ other, Manner.of? character = some .bare) (ends : Ends rest) (stops : Ends further)
    (same : word ++ rest = other ++ further) : word = other ∧ rest = further := by
  induction word generalizing other with
  | nil => cases other with
      | nil => exact ⟨rfl, same⟩
      | cons character other =>
          rw [List.nil_append] at same
          exact absurd (same ▸ ends) (not_ends_of_bare (plain character List.mem_cons_self))
  | cons character word ih => cases other with
      | nil =>
          rw [List.nil_append] at same
          exact absurd (same ▸ stops) (not_ends_of_bare (bare character List.mem_cons_self))
      | cons letter other =>
          rw [List.forall_mem_cons] at bare plain
          obtain ⟨rfl, tails⟩ := List.cons.inj same
          obtain ⟨rfl, rests⟩ := ih bare.2 plain.2 tails
          exact ⟨rfl, rests⟩

theorem Readable.bare_append (bare : ∀ character ∈ word, Manner.of? character = some .bare)
    (readable : Readable none rest) : Readable none (word ++ rest) :=
  readable.plain_append fun character member => (inert_of_bare (bare character member)).1

end Bare

theorem Plain.bare (datum : Plain) : ∀ character ∈ datum.word, Manner.of? character = some .bare :=
  fun _ member => if_pos (mem_word member)

theorem Word.bare (word : Word) : ∀ character ∈ word.name.toList, Manner.of? character = some .bare :=
  fun character member => if_pos (.inl (List.all_eq_true.mp word.letters character member))

theorem Word.exists_letter (word : Word) : ∃ letter letters, word.name.toList = letter :: letters ∧ isWord letter := by
  obtain ⟨letter, letters, name⟩ :=
    List.exists_cons_of_ne_nil fun empty => word.filled (String.toList_eq_nil_iff.mp empty)
  exact ⟨letter, letters, name, List.all_eq_true.mp word.letters letter (name ▸ List.mem_cons_self)⟩

namespace Datum

def manner : Datum → Manner
  | .plain _ => .bare
  | .text _ => .quoted
  | .symbol _ => .quoted
  | .cell _ _ => .listed

variable {data other : Datum} {rest further : List Char}

theorem print_eq_atom (atomic : data.manner ≠ .listed) : data.print = data.atom := by
  cases data with
  | cell => exact absurd rfl atomic
  | _ => rfl

theorem print_lead (data : Datum) :
    ∃ first rest, data.print = first :: rest ∧ Manner.of? first = some data.manner := by
  cases data with
  | plain datum =>
      obtain ⟨first, rest, same⟩ := List.exists_cons_of_ne_nil datum.word_ne_nil
      exact ⟨first, rest, same, datum.bare first (same ▸ List.mem_cons_self)⟩
  | text value =>
      refine ⟨_, _, rfl, ?_⟩
      rcases isQuote_quoteMark value.toList with same | same <;> rw [same] <;> rfl
  | symbol word => exact ⟨_, _, rfl, rfl⟩
  | cell head tail => exact ⟨_, _, rfl, rfl⟩

theorem manner_eq (same : data.print ++ rest = other.print ++ further) : data.manner = other.manner := by
  obtain ⟨first, letters, print, leads⟩ := data.print_lead
  obtain ⟨second, others, also, leading⟩ := other.print_lead
  rw [print, also] at same
  obtain ⟨rfl, -⟩ := List.cons.inj same
  exact Option.some.inj (leads.symm.trans leading)

theorem print_ne_dot : data.print ++ rest ≠ '.' :: further := by
  intro same
  obtain ⟨first, letters, print, leads⟩ := data.print_lead
  rw [print] at same
  obtain ⟨rfl, -⟩ := List.cons.inj same
  exact absurd leads nofun

theorem readable_atom (atomic : data.manner ≠ .listed) (ends : Ends rest) (readable : Readable none rest) :
    Readable none (data.atom ++ rest) := by
  cases data with
  | plain datum => exact readable.bare_append datum.bare
  | text value => exact readable.quoted_append isPrintable ends
  | symbol word =>
      obtain ⟨letter, letters, name, isLetter⟩ := word.exists_letter
      have further := readable.bare_append word.bare
      rw [name] at further
      rw [atom, name]
      exact .symbol isLetter further
  | cell => exact absurd rfl atomic

theorem text_ne_symbol {value : String} {word : Word} (ends : Ends rest) (readable : Readable none rest)
    (legible : Readable none further) : (text value).atom ++ rest ≠ (symbol word).atom ++ further := by
  intro same
  -- The quote opens the text but only leads the name, so what comes after it would be read in two modes.
  have within : Readable (some singleQuote) (word.name.toList ++ further) := .inside_quoted ends readable same
  exact nomatch within.mode_unique (legible.bare_append word.bare)

theorem atom_append_inj (atomic : data.manner ≠ .listed) (simple : other.manner ≠ .listed) (ends : Ends rest)
    (stops : Ends further) (readable : Readable none rest) (legible : Readable none further)
    (same : data.atom ++ rest = other.atom ++ further) : data = other ∧ rest = further := by
  have manner : data.manner = other.manner := by
    rw [← print_eq_atom atomic, ← print_eq_atom simple] at same
    exact manner_eq same
  cases data with
  | plain datum => cases other with
      | plain another =>
          obtain ⟨words, rests⟩ := bare_append_inj datum.bare another.bare ends stops same
          exact ⟨congrArg plain (Plain.word_injective words), rests⟩
      | _ => exact nomatch manner
  | text value => cases other with
      | text another =>
          obtain ⟨characters, rests⟩ := quoteCharacters_append_inj same
          exact ⟨congrArg text (String.toList_inj.mp characters), rests⟩
      | symbol word => exact absurd same (text_ne_symbol ends readable legible)
      | _ => exact nomatch manner
  | symbol word => cases other with
      | text value => exact absurd same.symm (text_ne_symbol stops legible readable)
      | symbol another =>
          obtain ⟨names, rests⟩ := bare_append_inj word.bare another.bare ends stops (List.cons.inj same).2
          exact ⟨congrArg symbol (Word.ext (String.toList_inj.mp names)), rests⟩
      | _ => exact nomatch manner
  | cell => exact absurd rfl atomic

theorem ends_bracket : Ends (')' :: rest) :=
  .inr rfl

theorem ends_ending (data : Datum) : Ends (data.ending ++ rest) := by
  cases data with
  | plain datum => cases datum with
      | null => exact .inr rfl
      | _ => exact .inl rfl
  | _ => exact .inl rfl

theorem ending_cases (data : Datum) :
    (data = .plain .null ∧ data.ending = [')']) ∨
      (data.manner ≠ .listed ∧ data.ending = ' ' :: '.' :: ' ' :: (data.atom ++ [')'])) ∨
      ∃ head tail, data = .cell head tail := by
  cases data with
  | plain datum => cases datum with
      | null => exact .inl ⟨rfl, rfl⟩
      | _ => exact .inr (.inl ⟨nofun, rfl⟩)
  | cell head tail => exact .inr (.inr ⟨head, tail, rfl⟩)
  | _ => exact .inr (.inl ⟨nofun, rfl⟩)

theorem readable_sign {character : Char}
    (sign : character ≠ singleQuote ∧ character ≠ doubleQuote ∧ character ≠ backslash)
    (readable : Readable none rest) :
    Readable none (character :: rest) :=
  .plain (not_or.mpr ⟨sign.1, sign.2.1⟩) sign.2.2 readable

theorem readable_atom_ending (atomic : data.manner ≠ .listed) (readable : Readable none rest) :
    Readable none (data.ending ++ rest) := by
  have bracket : Readable none (')' :: rest) := readable_sign (by decide) readable
  rcases data.ending_cases with ⟨-, same⟩ | ⟨-, same⟩ | ⟨_, _, rfl⟩
  · rwa [same]
  · simp only [same, List.cons_append, List.append_assoc, List.nil_append]
    have closed := readable_atom atomic ends_bracket bracket
    exact readable_sign (by decide) (readable_sign (by decide) (readable_sign (by decide) closed))
  · exact absurd rfl atomic

mutual

theorem readable_print : (data : Datum) → {rest : List Char} → Ends rest → Readable none rest →
    Readable none (data.print ++ rest)
  | .cell head tail, _, _, readable => by
      rw [print, List.cons_append, List.append_assoc]
      exact readable_sign (by decide) (head.readable_print tail.ends_ending (tail.readable_ending readable))
  | .plain _, _, ends, readable => readable_atom nofun ends readable
  | .text _, _, ends, readable => readable_atom nofun ends readable
  | .symbol _, _, ends, readable => readable_atom nofun ends readable

theorem readable_ending : (data : Datum) → {rest : List Char} → Readable none rest →
    Readable none (data.ending ++ rest)
  | .cell head tail, _, readable => by
      rw [ending, List.cons_append, List.append_assoc]
      exact readable_sign (by decide) (head.readable_print tail.ends_ending (tail.readable_ending readable))
  | .plain _, _, readable => readable_atom_ending nofun readable
  | .text _, _, readable => readable_atom_ending nofun readable
  | .symbol _, _, readable => readable_atom_ending nofun readable

end

/-- A datum is told from every other, and from what follows it, by its text and by what a list shows for it. -/
structure Told (data : Datum) : Prop where
  print {other : Datum} {rest further : List Char} : Ends rest → Ends further → Readable none rest →
    Readable none further → data.print ++ rest = other.print ++ further → data = other ∧ rest = further
  ending {other : Datum} {rest further : List Char} : Readable none rest → Readable none further →
    data.ending ++ rest = other.ending ++ further → data = other ∧ rest = further

theorem told_of_atomic (atomic : data.manner ≠ .listed) : data.Told where
  print ends stops readable legible same := by
    have simple := manner_eq same ▸ atomic
    rw [print_eq_atom atomic, print_eq_atom simple] at same
    exact atom_append_inj atomic simple ends stops readable legible same
  ending {other rest further} readable legible same := by
    rcases data.ending_cases with ⟨rfl, shown⟩ | ⟨-, shown⟩ | ⟨_, _, rfl⟩
    · rcases other.ending_cases with ⟨rfl, also⟩ | ⟨-, also⟩ | ⟨head, tail, rfl⟩
      · exact ⟨rfl, (List.cons.inj same).2⟩
      · rw [also] at same
        exact absurd (List.cons.inj same).1 (by decide)
      · exact absurd (List.cons.inj same).1 (by decide)
    · rcases other.ending_cases with ⟨rfl, also⟩ | ⟨simple, also⟩ | ⟨head, tail, rfl⟩
      · rw [shown] at same
        exact absurd (List.cons.inj same).1 (by decide)
      · simp only [shown, also, List.cons_append, List.append_assoc, List.nil_append, List.cons.injEq, true_and] at same
        obtain ⟨rfl, rests⟩ := atom_append_inj atomic simple ends_bracket ends_bracket
          (readable_sign (by decide) readable) (readable_sign (by decide) legible) same
        exact ⟨rfl, (List.cons.inj rests).2⟩
      · -- After the blank there is a dot here and the text of an item there.
        simp only [shown, ending, List.cons_append, List.append_assoc, List.nil_append, List.cons.injEq,
          true_and] at same
        exact absurd same.symm print_ne_dot
    · exact absurd rfl atomic

theorem Told.cell_append_inj {head tail first others : Datum} (headTold : head.Told) (tailTold : tail.Told)
    (readable : Readable none rest) (legible : Readable none further)
    (same : head.print ++ (tail.ending ++ rest) = first.print ++ (others.ending ++ further)) :
    cell head tail = cell first others ∧ rest = further := by
  obtain ⟨rfl, endings⟩ := headTold.print tail.ends_ending others.ends_ending (tail.readable_ending readable)
    (others.readable_ending legible) same
  obtain ⟨rfl, rests⟩ := tailTold.ending readable legible endings
  exact ⟨rfl, rests⟩

theorem Told.cell {head tail : Datum} (headTold : head.Told) (tailTold : tail.Told) : (cell head tail).Told where
  print {other rest further} _ _ readable legible same := by
    cases other with
    | cell first others =>
        simp only [Datum.print, List.cons_append, List.append_assoc, List.cons.injEq, true_and] at same
        exact headTold.cell_append_inj tailTold readable legible same
    | _ => exact nomatch manner_eq same
  ending {other rest further} readable legible same := by
    rcases other.ending_cases with ⟨rfl, -⟩ | ⟨-, also⟩ | ⟨first, others, rfl⟩
    · exact absurd (List.cons.inj same).1 (by decide)
    · simp only [also, Datum.ending, List.cons_append, List.append_assoc, List.cons.injEq, true_and] at same
      exact absurd same print_ne_dot
    · simp only [Datum.ending, List.cons_append, List.append_assoc, List.cons.injEq, true_and] at same
      exact headTold.cell_append_inj tailTold readable legible same

theorem told (data : Datum) : data.Told := by
  induction data with
  | cell head tail headTold tailTold => exact headTold.cell tailTold
  | _ => exact told_of_atomic nofun

theorem print_injective (same : data.print = other.print) : data = other := by
  have ends : Ends [] := trivial
  rw [← List.append_nil data.print, ← List.append_nil other.print] at same
  exact (data.told.print ends ends .done .done same).1

end Datum

def letterB : Word where
  name := "b"
  filled := by decide
  letters := by decide

def mixedData : Datum :=
  .cell (.text "a") (.cell (.symbol letterB) (.plain .null))

def mixedList : Value :=
  ⟨⟨0⟩, .cell, .cell ⟨⟨0⟩, .text, .text "a", 1⟩
    ⟨⟨0⟩, .cell, .cell ⟨⟨0⟩, .symbol, .symbol "b", 2⟩ ⟨⟨0⟩, .null, .null false, 3⟩, 4⟩, 5⟩

def quotedData : Datum :=
  .cell (.text "a\x27 \x27b") (.plain .null)

def quotedList : Value :=
  ⟨⟨1⟩, .cell, .cell ⟨⟨1⟩, .text, .text "a\x27 \x27b", 6⟩ ⟨⟨0⟩, .null, .null true, 7⟩, 8⟩

theorem mixedList_holds : mixedList.Holds mixedData :=
  .cell .text (.cell (.symbol letterB) .null)

theorem quotedList_holds : quotedList.Holds quotedData :=
  .cell .text .null

theorem mixedData_short : mixedData.Short :=
  ⟨trivial, trivial, trivial⟩

/-- The least integer with one digit more than a text may have. -/
def longNumber : Value :=
  ⟨⟨0⟩, .int, .int (Int.pow 10 digitLimit), 1⟩

end LazyStack
