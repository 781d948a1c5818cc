import LazyStack.Text.Quoted
import Mathlib.Algebra.Group.Nat.Defs

/-!
Reading quoted text. Each character between quotes is written in a way that tells where it ends and what it is, so a
quoted text can be told from whatever follows it. A quote alone does not tell whether it opens a text or stands before
the word of a symbol; but what follows can be read on from one mode only, in quotes or out of them, and that settles it.
-/

namespace LazyStack

def IsQuote (character : Char) : Prop :=
  character = singleQuote ∨ character = doubleQuote

theorem IsQuote.ne_backslash {mark : Char} (quote : IsQuote mark) : mark ≠ backslash := by
  rcases quote with rfl | rfl <;> decide

theorem isQuote_quoteMark (characters : List Char) : IsQuote (quoteMark characters) := by
  rw [quoteMark]
  split
  · exact .inr rfl
  · exact .inl rfl

def shortEscapes (mark : Char) : List (Char × Char) :=
  [(mark, mark), (backslash, backslash), ('\t', 't'), ('\n', 'n'), ('\r', 'r')]

def codeEscapes : List (Char × Nat) :=
  [('x', 2), ('u', 4), ('U', 8)]

section Hexadecimal

variable {width value other : Nat}

theorem hexDigits_succ (width value : Nat) :
    hexDigits (width + 1) value = Nat.digitChar (value / Nat.pow 16 width % 16) :: hexDigits width value := by
  simp [hexDigits, List.range_succ]

theorem length_hexDigits (width value : Nat) : (hexDigits width value).length = width := by
  simp [hexDigits]

theorem digitChar_injective : ∀ first second : Fin 16,
    Nat.digitChar first = Nat.digitChar second → first = second := by
  decide

theorem not_isQuote_digitChar : ∀ digit : Fin 16,
    Nat.digitChar digit ≠ singleQuote ∧ Nat.digitChar digit ≠ doubleQuote ∧ Nat.digitChar digit ≠ backslash := by
  decide

theorem mod_of_hexDigits (same : hexDigits width value = hexDigits width other) :
    value % 16 ^ width = other % 16 ^ width := by
  induction width with
  | zero => simp [Nat.mod_one]
  | succ width ih =>
      rw [hexDigits_succ, hexDigits_succ, List.cons.injEq] at same
      have leading := digitChar_injective ⟨value / Nat.pow 16 width % 16, Nat.mod_lt _ (by decide)⟩
        ⟨other / Nat.pow 16 width % 16, Nat.mod_lt _ (by decide)⟩ same.1
      have digit : value / 16 ^ width % 16 = other / 16 ^ width % 16 := Fin.mk.inj leading
      rw [Nat.mod_pow_succ, Nat.mod_pow_succ, ih same.2, digit]

theorem eq_of_hexDigits (same : hexDigits width value = hexDigits width other) (small : value < 16 ^ width)
    (little : other < 16 ^ width) : value = other := by
  have equal := mod_of_hexDigits same
  rwa [Nat.mod_eq_of_lt small, Nat.mod_eq_of_lt little] at equal

end Hexadecimal

section Escapes

variable {printable : Char → Bool} {mark character other : Char} {rest further : List Char}

theorem escapeCharacter_cases (printable : Char → Bool) (mark character : Char) :
    (character ≠ mark ∧ character ≠ backslash ∧ escapeCharacter printable mark character = [character]) ∨
      (∃ letter, (character, letter) ∈ shortEscapes mark ∧
        escapeCharacter printable mark character = [backslash, letter]) ∨
      ∃ letter width, (letter, width) ∈ codeEscapes ∧ character.toNat < 16 ^ width ∧
        escapeCharacter printable mark character = backslash :: letter :: hexDigits width character.toNat := by
  rw [escapeCharacter]
  split
  next itself =>
    rcases itself with rfl | rfl
    · exact .inr (.inl ⟨_, by simp [shortEscapes], rfl⟩)
    · exact .inr (.inl ⟨_, by simp [shortEscapes], rfl⟩)
  next other =>
    rw [not_or] at other
    split
    next tab => exact .inr (.inl ⟨_, by simp [shortEscapes, tab], rfl⟩)
    split
    next feed => exact .inr (.inl ⟨_, by simp [shortEscapes, feed], rfl⟩)
    split
    next carriage => exact .inr (.inl ⟨_, by simp [shortEscapes, carriage], rfl⟩)
    split
    next => exact .inl ⟨other.1, other.2, rfl⟩
    next =>
      rw [escapeCode]
      split
      next small => exact .inr (.inr ⟨'x', 2, by simp [codeEscapes], small, rfl⟩)
      split
      next small => exact .inr (.inr ⟨'u', 4, by simp [codeEscapes], small, rfl⟩)
      next =>
        have bound : character.toNat < 16 ^ 8 := by
          have valid := character.valid
          simp only [UInt32.isValidChar, Nat.isValidChar] at valid
          have same : character.toNat = character.val.toNat := rfl
          omega
        exact .inr (.inr ⟨'U', 8, by simp [codeEscapes], bound, rfl⟩)

variable (quote : IsQuote mark)
include quote

theorem shortEscape_unique {letter : Char} (first : (character, letter) ∈ shortEscapes mark)
    (second : (other, letter) ∈ shortEscapes mark) : character = other := by
  have unique : ∀ entry ∈ shortEscapes mark, ∀ again ∈ shortEscapes mark, entry.2 = again.2 → entry.1 = again.1 := by
    rcases quote with rfl | rfl <;> decide
  exact unique _ first _ second rfl

theorem shortEscape_ne_code {letter : Char} {width : Nat} (first : (character, letter) ∈ shortEscapes mark)
    (second : (letter, width) ∈ codeEscapes) : False := by
  have apart : ∀ entry ∈ shortEscapes mark, ∀ code ∈ codeEscapes, entry.2 ≠ code.1 := by
    rcases quote with rfl | rfl <;> decide
  exact apart _ first _ second rfl

omit quote in
theorem codeEscape_width {letter : Char} {width more : Nat} (first : (letter, width) ∈ codeEscapes)
    (second : (letter, more) ∈ codeEscapes) : width = more := by
  have unique : ∀ entry ∈ codeEscapes, ∀ again ∈ codeEscapes, entry.1 = again.1 → entry.2 = again.2 := by
    decide
  exact unique _ first _ second rfl

theorem escapeCharacter_ne_mark (same : escapeCharacter printable mark character ++ rest = mark :: further) :
    False := by
  rcases escapeCharacter_cases printable mark character with
    ⟨apart, -, written⟩ | ⟨letter, -, written⟩ | ⟨letter, width, -, -, written⟩ <;>
    rw [written] at same
  · exact apart (List.cons.inj same).1
  · exact quote.ne_backslash (List.cons.inj same).1.symm
  · exact quote.ne_backslash (List.cons.inj same).1.symm

theorem escapeCharacter_append_inj
    (same : escapeCharacter printable mark character ++ rest = escapeCharacter printable mark other ++ further) :
    character = other ∧ rest = further := by
  rcases escapeCharacter_cases printable mark character with
    ⟨-, bare, written⟩ | ⟨letter, short, written⟩ | ⟨letter, width, code, small, written⟩ <;>
    rcases escapeCharacter_cases printable mark other with
      ⟨-, plain, also⟩ | ⟨second, brief, also⟩ | ⟨second, more, point, little, also⟩ <;>
    rw [written, also] at same <;> obtain ⟨head, tail⟩ := List.cons.inj same
  · exact ⟨head, tail⟩
  · exact absurd head bare
  · exact absurd head bare
  · exact absurd head.symm plain
  · obtain ⟨rfl, following⟩ := List.cons.inj tail
    exact ⟨shortEscape_unique quote short brief, following⟩
  · obtain ⟨rfl, -⟩ := List.cons.inj tail
    exact (shortEscape_ne_code quote short point).elim
  · exact absurd head.symm plain
  · obtain ⟨rfl, -⟩ := List.cons.inj tail
    exact (shortEscape_ne_code quote brief code).elim
  · obtain ⟨rfl, digits⟩ := List.cons.inj tail
    obtain rfl := codeEscape_width code point
    obtain ⟨numbers, rest⟩ := List.append_inj digits (by rw [length_hexDigits, length_hexDigits])
    exact ⟨Char.toNat_inj.mp (eq_of_hexDigits numbers small little), rest⟩

theorem escaped_append_inj {characters others : List Char}
    (same : characters.flatMap (escapeCharacter printable mark) ++ mark :: rest =
      others.flatMap (escapeCharacter printable mark) ++ mark :: further) :
    characters = others ∧ rest = further := by
  induction characters generalizing others with
  | nil => cases others with
      | nil => exact ⟨rfl, (List.cons.inj same).2⟩
      | cons other others =>
          rw [List.flatMap_cons, List.append_assoc] at same
          exact (escapeCharacter_ne_mark quote same.symm).elim
  | cons character characters ih =>
      rw [List.flatMap_cons, List.append_assoc] at same
      cases others with
      | nil => exact (escapeCharacter_ne_mark quote same).elim
      | cons other others =>
          rw [List.flatMap_cons, List.append_assoc] at same
          obtain ⟨rfl, later⟩ := escapeCharacter_append_inj quote same
          obtain ⟨rfl, following⟩ := ih later
          exact ⟨rfl, following⟩

omit quote in
/-- A quoted text is told from every other, and from what follows it. -/
theorem quoteCharacters_append_inj {characters others : List Char}
    (same : quoteCharacters printable characters ++ rest = quoteCharacters printable others ++ further) :
    characters = others ∧ rest = further := by
  simp only [quoteCharacters, List.append_assoc, List.cons_append, List.nil_append, List.cons.injEq] at same
  rw [← same.1] at same
  exact escaped_append_inj (isQuote_quoteMark characters) same.2

end Escapes

def isWord (character : Char) : Bool :=
  character.isAlphanum || character = '_'

/-- What may follow a text: nothing, a blank, or the end of a list. -/
def Ends : List Char → Prop
  | [] => True
  | character :: _ => character = ' ' ∨ character = ')'

/-- What can be read on, out of quotes or between quotes of a kind, to an end out of quotes. -/
inductive Readable : Option Char → List Char → Prop
  | done : Readable none []
  | plain {character rest} :
      ¬ IsQuote character → character ≠ backslash → Readable none rest → Readable none (character :: rest)
  | symbol {letter rest} :
      isWord letter → Readable none (letter :: rest) → Readable none (singleQuote :: letter :: rest)
  | opening {mark rest} : IsQuote mark → Readable (some mark) rest → Readable none (mark :: rest)
  | inside {mark character rest} :
      character ≠ mark → character ≠ backslash → Readable (some mark) rest →
      Readable (some mark) (character :: rest)
  | escaped {mark character rest} :
      Readable (some mark) rest → Readable (some mark) (backslash :: character :: rest)
  | closing {mark rest} : IsQuote mark → Ends rest → Readable none rest → Readable (some mark) (mark :: rest)

theorem not_ends_of_isWord {letter : Char} {rest : List Char} (word : isWord letter) : ¬ Ends (letter :: rest) := by
  rintro (rfl | rfl)
  · exact absurd word (by decide)
  · exact absurd word (by decide)

namespace Readable

variable {character mark : Char} {rest : List Char}

theorem out_cases (readable : Readable none (character :: rest)) :
    (¬ IsQuote character ∧ character ≠ backslash ∧ Readable none rest) ∨
      (character = singleQuote ∧ ¬ Ends rest ∧ Readable none rest) ∨
      IsQuote character ∧ Readable (some character) rest := by
  cases readable with
  | plain bare apart further => exact .inl ⟨bare, apart, further⟩
  | symbol word further => exact .inr (.inl ⟨rfl, not_ends_of_isWord word, further⟩)
  | opening quote further => exact .inr (.inr ⟨quote, further⟩)

theorem within_cases (readable : Readable (some mark) (character :: rest)) :
    (character ≠ mark ∧ character ≠ backslash ∧ Readable (some mark) rest) ∨
      (character = backslash ∧ ∃ next later, rest = next :: later ∧ Readable (some mark) later) ∨
      character = mark ∧ IsQuote mark ∧ Ends rest ∧ Readable none rest := by
  cases readable with
  | inside apart bare further => exact .inl ⟨apart, bare, further⟩
  | escaped further => exact .inr (.inl ⟨rfl, _, _, rfl, further⟩)
  | closing quote ends further => exact .inr (.inr ⟨rfl, quote, ends, further⟩)

/-- The same can be read on from one mode only. At a quote the modes change, but never into one. -/
theorem mode_unique {first second : Option Char} {text : List Char} (readable : Readable first text)
    (also : Readable second text) : first = second := by
  -- The second reading takes the same character in its own mode; at a mark it may change, so the cases are by what the
  -- first one does there.
  induction readable generalizing second with
  | done => cases also; rfl
  | plain bare apart _ ih => cases second with
      | none => rfl
      | some mark =>
          rcases also.within_cases with ⟨-, -, further⟩ | ⟨escape, -⟩ | ⟨rfl, quote, -⟩
          · exact ih further
          · exact absurd escape apart
          · exact absurd quote bare
  | symbol word _ ih => cases second with
      | none => rfl
      | some mark =>
          rcases also.within_cases with ⟨-, -, further⟩ | ⟨escape, -⟩ | ⟨-, -, ends, -⟩
          · exact ih further
          · exact absurd escape (by decide)
          · exact absurd ends (not_ends_of_isWord word)
  | opening quote _ ih => cases second with
      | none => rfl
      | some mark =>
          rcases also.within_cases with ⟨apart, -, further⟩ | ⟨escape, -⟩ | ⟨-, -, -, further⟩
          · exact absurd (Option.some.inj (ih further)) apart
          · exact absurd escape quote.ne_backslash
          · exact nomatch ih further
  | inside apart bare _ ih => cases second with
      | none =>
          rcases also.out_cases with ⟨-, -, further⟩ | ⟨-, -, further⟩ | ⟨-, further⟩
          · exact ih further
          · exact ih further
          · exact absurd (Option.some.inj (ih further)).symm apart
      | some mark =>
          rcases also.within_cases with ⟨-, -, further⟩ | ⟨escape, -⟩ | ⟨-, -, -, further⟩
          · exact ih further
          · exact absurd escape bare
          · exact nomatch ih further
  | escaped _ ih => cases second with
      | none =>
          rcases also.out_cases with ⟨-, apart, -⟩ | ⟨same, -⟩ | ⟨quote, -⟩
          · exact absurd rfl apart
          · exact absurd same (by decide)
          · exact absurd rfl quote.ne_backslash
      | some mark =>
          rcases also.within_cases with ⟨-, apart, -⟩ | ⟨-, _, _, same, further⟩ | ⟨same, quote, -⟩
          · exact absurd rfl apart
          · obtain ⟨rfl, rfl⟩ := List.cons.inj same
            exact ih further
          · exact absurd same.symm quote.ne_backslash
  | closing quote ends _ ih => cases second with
      | none =>
          rcases also.out_cases with ⟨bare, -⟩ | ⟨-, goes, -⟩ | ⟨-, further⟩
          · exact absurd quote bare
          · exact absurd ends goes
          · exact nomatch ih further
      | some mark =>
          rcases also.within_cases with ⟨-, -, further⟩ | ⟨escape, -⟩ | ⟨rfl, -⟩
          · exact nomatch ih further
          · exact absurd escape quote.ne_backslash
          · rfl

variable {characters : List Char}

theorem plain_append (plain : ∀ character ∈ characters, ¬ IsQuote character ∧ character ≠ backslash)
    (readable : Readable none rest) : Readable none (characters ++ rest) := by
  induction characters with
  | nil => exact readable
  | cons character characters ih =>
      rw [List.forall_mem_cons] at plain
      exact .plain plain.1.1 plain.1.2 (ih plain.2)

theorem inside_append (inside : ∀ character ∈ characters, character ≠ mark ∧ character ≠ backslash)
    (readable : Readable (some mark) rest) : Readable (some mark) (characters ++ rest) := by
  induction characters with
  | nil => exact readable
  | cons character characters ih =>
      rw [List.forall_mem_cons] at inside
      exact .inside inside.1.1 inside.1.2 (ih inside.2)

theorem not_mark_of_mem_hexDigits (quote : IsQuote mark) {width value : Nat}
    (member : character ∈ hexDigits width value) : character ≠ mark ∧ character ≠ backslash := by
  obtain ⟨place, -, rfl⟩ := List.mem_map.mp member
  obtain ⟨single, double, bare⟩ :=
    not_isQuote_digitChar ⟨value / Nat.pow 16 place % 16, Nat.mod_lt _ (by decide)⟩
  rcases quote with rfl | rfl
  · exact ⟨single, bare⟩
  · exact ⟨double, bare⟩

theorem escaped_append (printable : Char → Bool) (quote : IsQuote mark) (readable : Readable (some mark) rest) :
    Readable (some mark) (characters.flatMap (escapeCharacter printable mark) ++ rest) := by
  induction characters with
  | nil => exact readable
  | cons character characters ih =>
      rw [List.flatMap_cons, List.append_assoc]
      rcases escapeCharacter_cases printable mark character with
        ⟨apart, bare, written⟩ | ⟨letter, -, written⟩ | ⟨letter, width, -, -, written⟩
      · rw [written]
        exact .inside apart bare ih
      · rw [written]
        exact .escaped ih
      · rw [written]
        exact .escaped (inside_append (fun _ => not_mark_of_mem_hexDigits quote) ih)

theorem inside_quoted {printable : Char → Bool} {inside : List Char} (ends : Ends rest) (readable : Readable none rest)
    (same : quoteCharacters printable characters ++ rest = mark :: inside) : Readable (some mark) inside := by
  have quote := isQuote_quoteMark characters
  rw [quoteCharacters, List.append_assoc] at same
  obtain ⟨rfl, rfl⟩ := List.cons.inj same
  exact escaped_append printable quote (.closing quote ends readable)

theorem quoted_append (printable : Char → Bool) (ends : Ends rest) (readable : Readable none rest) :
    Readable none (quoteCharacters printable characters ++ rest) :=
  .opening (isQuote_quoteMark characters) (inside_quoted ends readable rfl)

end Readable

end LazyStack
