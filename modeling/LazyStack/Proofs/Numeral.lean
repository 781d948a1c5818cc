import LazyStack.Setting
import Mathlib.Data.List.Basic
import Mathlib.Data.List.TakeWhile
import Mathlib.Data.Nat.Digits.Defs

/-!
Numerals in the call-depth setting. A numeral is made of digits of any scripts, with underscores that each stand
between two of them. A text spells the number of a numeral if there is nothing else in it but a plus before that and
blanks around it. A setting counts exactly if it spells a positive number, and whatever it is, the limit on calls lies
between one and its ceiling.
-/

namespace LazyStack

def IsDigit (character : Char) : Prop :=
  (digitValue? character).isSome

instance (character : Char) : Decidable (IsDigit character) :=
  inferInstanceAs (Decidable ((digitValue? character).isSome = true))

/-- Digits, and underscores that each stand between two of them. -/
structure Numeral (characters : List Char) : Prop where
  nonempty : characters ≠ []
  known : ∀ character ∈ characters, IsDigit character ∨ character = '_'
  between : ∀ before after, characters = before ++ '_' :: after →
    (∃ digit ∈ before.getLast?, IsDigit digit) ∧ ∃ digit ∈ after.head?, IsDigit digit

def digitsOf (characters : List Char) : List Nat :=
  characters.filterMap digitValue?

def numberOf (characters : List Char) : Nat :=
  Nat.ofDigits 10 (digitsOf characters).reverse

/-- Blanks, a plus or no sign, a numeral, and blanks again. -/
def Spells (characters : List Char) (number : Nat) : Prop :=
  ∃ before sign numeral after, characters = before ++ (sign ++ numeral) ++ after ∧
    (∀ character ∈ before, isBlank character) ∧ (sign = [] ∨ sign = ['+']) ∧
    Numeral numeral ∧ numberOf numeral = number ∧ ∀ character ∈ after, isBlank character

variable {characters before core after rest : List Char} {first character : Char} {number : Nat}

section Digits

theorem not_isDigit_underscore : ¬ IsDigit '_' := by
  decide

theorem not_isDigit_plus : ¬ IsDigit '+' := by
  decide

theorem not_isDigit_minus : ¬ IsDigit '-' := by
  decide

-- No script has its digits among the blanks, as the two tables show.
theorem IsDigit.not_isBlank (digit : IsDigit character) : isBlank character = false := by
  have apart : ∀ lowest ∈ digitZeros, ∀ range ∈ blankRanges,
      range.2 < lowest ∨ lowest + 10 ≤ range.1 := by
    decide
  obtain ⟨value, read⟩ := Option.isSome_iff_exists.mp digit
  obtain ⟨lowest, found, -⟩ := Option.map_eq_some_iff.mp read
  have listed := List.mem_of_find?_eq_some found
  have bounds := List.find?_some found
  simp only [Bool.and_eq_true, decide_eq_true_eq] at bounds
  rw [isBlank, List.any_eq_false]
  intro range member
  rcases apart lowest listed range member with below | above
  · simp; omega
  · simp; omega

end Digits

namespace Numeral

theorem head (numeral : Numeral (first :: rest)) : IsDigit first := by
  refine (numeral.known first List.mem_cons_self).resolve_right ?_
  rintro rfl
  obtain ⟨⟨_, none, _⟩, _⟩ := numeral.between [] rest rfl
  cases none

theorem last {numeral : List Char} (read : Numeral numeral) {final : Char} {lead : List Char}
    (same : numeral = lead ++ [final]) : IsDigit final := by
  refine (read.known final (by simp [same])).resolve_right ?_
  rintro rfl
  obtain ⟨_, _, none, _⟩ := read.between lead [] same
  cases none

theorem onward (lead : List Char) (numeral : Numeral (lead ++ first :: rest)) (digit : IsDigit first) :
    Numeral (first :: rest) where
  nonempty := nofun
  known character member := numeral.known character (List.mem_append_right lead member)
  between before after same := by
    cases before with
    | nil =>
        cases same
        exact absurd digit not_isDigit_underscore
    | cons one before =>
        have beside := numeral.between (lead ++ one :: before) after (by rw [same, List.append_assoc])
        rwa [List.getLast?_append_cons] at beside

theorem single (digit : IsDigit first) : Numeral [first] where
  nonempty := nofun
  known character member := by
    cases List.mem_singleton.mp member
    exact .inl digit
  between before after same := by
    cases before with
    | nil =>
        cases same
        exact absurd digit not_isDigit_underscore
    | cons one before => simp at same

theorem cons (digit : IsDigit first) (numeral : Numeral rest) : Numeral (first :: rest) where
  nonempty := nofun
  known character member := by
    rcases List.mem_cons.mp member with rfl | later
    · exact .inl digit
    · exact numeral.known character later
  between before after same := by
    cases before with
    | nil =>
        cases same
        exact absurd digit not_isDigit_underscore
    | cons one before =>
        cases same
        obtain ⟨⟨digit, last, known⟩, next⟩ := numeral.between before after rfl
        refine ⟨⟨digit, ?_, known⟩, next⟩
        rw [List.getLast?_cons, Option.mem_def.mp last]
        rfl

theorem gap (digit : IsDigit first) (numeral : Numeral rest) : Numeral (first :: '_' :: rest) where
  nonempty := nofun
  known character member := by
    rcases List.mem_cons.mp member with rfl | later
    · exact .inl digit
    · rcases List.mem_cons.mp later with rfl | further
      · exact .inr rfl
      · exact numeral.known character further
  between before after same := by
    match before with
    | [] =>
        cases same
        exact absurd digit not_isDigit_underscore
    | [_] =>
        cases same
        refine ⟨⟨first, rfl, digit⟩, ?_⟩
        obtain ⟨next, more, rfl⟩ := List.exists_cons_of_ne_nil numeral.nonempty
        exact ⟨next, rfl, numeral.head⟩
    | _ :: _ :: before =>
        cases same
        obtain ⟨⟨digit, last, known⟩, next⟩ := numeral.between before after rfl
        refine ⟨⟨digit, ?_, known⟩, next⟩
        rw [List.getLast?_cons, List.getLast?_cons, Option.mem_def.mp last]
        rfl

end Numeral

theorem digitsOf_cons {value : Nat} (read : digitValue? first = some value) (rest : List Char) :
    digitsOf (first :: rest) = value :: digitsOf rest :=
  List.filterMap_cons_some read

theorem digitsOf_underscore (rest : List Char) : digitsOf ('_' :: rest) = digitsOf rest :=
  List.filterMap_cons_none (by decide)

theorem digitValues?_eq_some_iff {values : List Nat} :
    digitValues? characters = some values ↔ Numeral characters ∧ digitsOf characters = values := by
  induction characters using digitValues?.induct generalizing values with
  | case1 => exact iff_of_false nofun fun both => both.1.nonempty rfl
  | case2 last =>
      rw [digitValues?, Option.map_eq_some_iff]
      constructor
      · rintro ⟨value, read, rfl⟩
        exact ⟨.single (Option.isSome_iff_exists.mpr ⟨value, read⟩), digitsOf_cons read []⟩
      · rintro ⟨numeral, rfl⟩
        obtain ⟨value, read⟩ := Option.isSome_iff_exists.mp numeral.head
        exact ⟨value, read, (digitsOf_cons read []).symm⟩
  | case3 digit rest ih =>
      simp only [digitValues?, bind, Option.bind_eq_some_iff, ih, pure, Option.some.injEq]
      constructor
      · rintro ⟨value, read, _, ⟨numeral, rfl⟩, rfl⟩
        refine ⟨.gap (Option.isSome_iff_exists.mpr ⟨value, read⟩) numeral, ?_⟩
        rw [digitsOf_cons read, digitsOf_underscore]
      · rintro ⟨numeral, rfl⟩
        obtain ⟨value, read⟩ := Option.isSome_iff_exists.mp numeral.head
        obtain ⟨_, next, begins, known⟩ := numeral.between [digit] rest rfl
        obtain ⟨more, rfl⟩ := List.head?_eq_some_iff.mp begins
        refine ⟨value, read, _, ⟨Numeral.onward [digit, '_'] numeral known, rfl⟩, ?_⟩
        rw [digitsOf_cons read, digitsOf_underscore]
  | case4 digit next rest apart ih =>
      simp only [digitValues?, bind, Option.bind_eq_some_iff, ih, pure, Option.some.injEq]
      constructor
      · rintro ⟨value, read, _, ⟨numeral, rfl⟩, rfl⟩
        exact ⟨.cons (Option.isSome_iff_exists.mpr ⟨value, read⟩) numeral, digitsOf_cons read _⟩
      · rintro ⟨numeral, rfl⟩
        obtain ⟨value, read⟩ := Option.isSome_iff_exists.mp numeral.head
        have known : IsDigit next := (numeral.known next (by simp)).resolve_right apart
        exact ⟨value, read, _, ⟨Numeral.onward [digit] numeral known, rfl⟩, (digitsOf_cons read _).symm⟩

theorem natural?_eq_some_iff : natural? characters = some number ↔
    Numeral characters ∧ (digitsOf characters).length ≤ digitLimit ∧ numberOf characters = number := by
  have value (digits : List Nat) :
      digits.foldl (fun total value => 10 * total + value) 0 = Nat.ofDigits 10 digits.reverse := by
    rw [Nat.ofDigits_eq_foldr, List.foldr_reverse]
    simp only [Nat.cast_id, Nat.add_comm]
  simp only [natural?, bind, Option.bind_eq_some_iff, digitValues?_eq_some_iff, numberOf, ← value]
  constructor
  · rintro ⟨_, ⟨numeral, rfl⟩, read⟩
    split at read
    next few => exact ⟨numeral, few, Option.some.inj read⟩
    next => cases read
  · rintro ⟨numeral, few, rfl⟩
    exact ⟨_, ⟨numeral, rfl⟩, if_pos few⟩

section Trim

theorem trim_eq {lead : List Char} {last : Char} (before_blank : ∀ character ∈ before, isBlank character)
    (begins : core = first :: rest) (first_not : isBlank first = false) (ends : core = lead ++ [last])
    (last_not : isBlank last = false) (after_blank : ∀ character ∈ after, isBlank character) :
    trim (before ++ core ++ after) = core := by
  have dropped : (before ++ core ++ after).dropWhile isBlank = core ++ after := by
    rw [List.append_assoc, List.dropWhile_append_of_pos before_blank, begins, List.cons_append]
    exact List.dropWhile_cons_of_neg (by simp [first_not])
  have blanks : ∀ character ∈ after.reverse, isBlank character := fun character member =>
    after_blank character (List.mem_reverse.mp member)
  have kept : core.reverse.dropWhile isBlank = core.reverse := by
    rw [ends, List.reverse_append]
    exact List.dropWhile_cons_of_neg (by simp [last_not])
  rw [trim, dropped, List.reverse_append, List.dropWhile_append_of_pos blanks, kept, List.reverse_reverse]

theorem exists_trim (characters : List Char) : ∃ before after, characters = before ++ trim characters ++ after ∧
    (∀ character ∈ before, isBlank character) ∧ ∀ character ∈ after, isBlank character := by
  let kept := characters.dropWhile isBlank
  refine ⟨characters.takeWhile isBlank, (kept.reverse.takeWhile isBlank).reverse, ?_,
    fun _ => List.mem_takeWhile_imp, fun _ member => List.mem_takeWhile_imp (List.mem_reverse.mp member)⟩
  have front : trim characters ++ (kept.reverse.takeWhile isBlank).reverse = kept := by
    rw [trim, ← List.reverse_append, List.takeWhile_append_dropWhile, List.reverse_reverse]
  rw [List.append_assoc, front, List.takeWhile_append_dropWhile]

end Trim

theorem Numeral.ends (numeral : Numeral characters) :
    ∃ lead last, characters = lead ++ [last] ∧ IsDigit last := by
  obtain ⟨lead, last, same⟩ := (List.eq_nil_or_concat' characters).resolve_left numeral.nonempty
  exact ⟨lead, last, same, numeral.last same⟩

theorem Numeral.begins (numeral : Numeral characters) :
    ∃ first rest, characters = first :: rest ∧ IsDigit first := by
  obtain ⟨first, rest, rfl⟩ := List.exists_cons_of_ne_nil numeral.nonempty
  exact ⟨first, rest, rfl, numeral.head⟩

theorem signed?_of_numeral (numeral : Numeral characters) :
    signed? characters = (natural? characters).map Int.ofNat := by
  obtain ⟨first, rest, rfl, digit⟩ := numeral.begins
  rw [signed?]
  · rintro _ ⟨⟩
    exact not_isDigit_plus digit
  · rintro _ ⟨⟩
    exact not_isDigit_minus digit

theorem integer?_of_spells {text : String} (spells : Spells text.toList number)
    (few : (digitsOf text.toList).length ≤ digitLimit) : integer? text = some number := by
  obtain ⟨before, sign, numeral, after, same, before_blank, signed, read, rfl, after_blank⟩ := spells
  have short : (digitsOf numeral).length ≤ digitLimit := by
    rw [same, digitsOf, List.filterMap_append, List.filterMap_append, List.filterMap_append] at few
    simp only [List.length_append] at few
    rw [digitsOf]
    omega
  have natural : natural? numeral = some (numberOf numeral) := natural?_eq_some_iff.mpr ⟨read, short, rfl⟩
  obtain ⟨first, rest, begins, head⟩ := read.begins
  obtain ⟨lead, last, ends, final⟩ := read.ends
  have trimmed : trim text.toList = sign ++ numeral := by
    rw [same]
    rcases signed with rfl | rfl
    · exact trim_eq before_blank begins head.not_isBlank ends final.not_isBlank after_blank
    · have ends : ['+'] ++ numeral = ('+' :: lead) ++ [last] := by rw [ends]; rfl
      exact trim_eq before_blank rfl (by decide) ends final.not_isBlank after_blank
  rw [integer?, trimmed]
  rcases signed with rfl | rfl
  · rw [List.nil_append, signed?_of_numeral read, natural]
    rfl
  · rw [List.singleton_append, signed?, natural]
    rfl

theorem spells_of_integer? {text : String} {value : Int} (read : integer? text = some value)
    (positive : 0 < value) : Spells text.toList value.toNat := by
  obtain ⟨before, after, same, before_blank, after_blank⟩ := exists_trim text.toList
  have signed (sign numeral : List Char) (either : sign = [] ∨ sign = ['+'])
      (middle : trim text.toList = sign ++ numeral) (natural : (natural? numeral).map Int.ofNat = some value) :
      Spells text.toList value.toNat := by
    obtain ⟨number, found, rfl⟩ := Option.map_eq_some_iff.mp natural
    obtain ⟨numeral_read, -, same_number⟩ := natural?_eq_some_iff.mp found
    rw [middle] at same
    exact ⟨before, sign, numeral, after, same, before_blank, either, numeral_read, same_number, after_blank⟩
  rw [integer?, signed?.eq_def] at read
  split at read
  next rest middle => exact signed ['+'] rest (.inr rfl) middle read
  next rest middle =>
    obtain ⟨number, -, rfl⟩ := Option.map_eq_some_iff.mp read
    have negative : -Int.ofNat number ≤ 0 := Int.neg_nonpos_of_nonneg (Int.natCast_nonneg number)
    omega
  next => exact signed [] (trim text.toList) (.inl rfl) rfl read

def Denotes (raw : Option String) (number : Nat) : Prop :=
  ∃ text, raw = some text ∧ Spells text.toList number

section Setting

variable {raw : Option String} {fallback : Int}

theorem positiveSetting_of_denotes (denotes : Denotes raw number) (positive : 0 < number)
    (few : ∀ text, raw = some text → (digitsOf text.toList).length ≤ digitLimit) :
    positiveSetting raw fallback = number := by
  obtain ⟨text, rfl, spells⟩ := denotes
  have read : (some text).bind integer? = some (number : Int) := integer?_of_spells spells (few text rfl)
  rw [positiveSetting, read]
  exact if_pos (Int.natCast_pos.mpr positive)

theorem positiveSetting_cases (raw : Option String) (fallback : Int) :
    positiveSetting raw fallback = fallback ∨
      ∃ number : Nat, Denotes raw number ∧ 0 < number ∧ positiveSetting raw fallback = number := by
  rw [positiveSetting]
  split
  next value read =>
    split
    next positive =>
      obtain ⟨text, rfl, read⟩ := Option.bind_eq_some_iff.mp read
      exact .inr ⟨value.toNat, ⟨text, rfl, spells_of_integer? read positive⟩, by omega, by omega⟩
    next => exact .inl rfl
  next => exact .inl rfl

theorem ceilingUnder_pos (nesting : Nat) : 1 ≤ ceilingUnder nesting :=
  Nat.le_max_left 1 _

theorem positiveSetting_pos (raw : Option String) (positive : 0 < fallback) : 0 < positiveSetting raw fallback := by
  rcases positiveSetting_cases raw fallback with same | ⟨number, -, counted, same⟩
  · rw [same]
    exact positive
  · rw [same]
    exact Int.natCast_pos.mpr counted

end Setting

/-- A setting with no more digits than may be read yields the number that it spells if that is positive, and the
default otherwise. So the limit on calls is what the setting spells if that lies between one and the ceiling, and else
the ceiling. -/
theorem setting_yields_number_or_default (raw : Option String) (nesting : Nat) :
    (1 ≤ limitUnder (ceilingUnder nesting) raw ∧ limitUnder (ceilingUnder nesting) raw ≤ ceilingUnder nesting) ∧
      ((∀ text, raw = some text → (digitsOf text.toList).length ≤ digitLimit) →
        (∀ (fallback : Int) (number : Nat), Denotes raw number → 0 < number →
          positiveSetting raw fallback = number) ∧
        (∀ fallback : Int, (¬ ∃ number, Denotes raw number ∧ 0 < number) →
          positiveSetting raw fallback = fallback) ∧
        (∀ number, Denotes raw number → 1 ≤ number → number ≤ ceilingUnder nesting →
          limitUnder (ceilingUnder nesting) raw = number) ∧
        ((¬ ∃ number, Denotes raw number ∧ 1 ≤ number ∧ number ≤ ceilingUnder nesting) →
          limitUnder (ceilingUnder nesting) raw = ceilingUnder nesting)) := by
  have usable := ceilingUnder_pos nesting
  have cases := positiveSetting_cases raw (ceilingUnder nesting)
  refine ⟨?_, fun few => ⟨?_, ?_, ?_, ?_⟩⟩
  · have positive := positiveSetting_pos raw (Int.natCast_pos.mpr usable)
    rw [limitUnder]
    omega
  · intro fallback number denotes positive
    exact positiveSetting_of_denotes denotes positive few
  · intro fallback none
    refine (positiveSetting_cases raw fallback).resolve_right ?_
    rintro ⟨number, denotes, positive, -⟩
    exact none ⟨number, denotes, positive⟩
  · intro number denotes positive within
    rw [limitUnder, positiveSetting_of_denotes denotes positive few]
    omega
  · intro none
    rw [limitUnder]
    rcases cases with same | ⟨number, denotes, positive, same⟩
    · rw [same]
      omega
    · have beyond : ceilingUnder nesting < number := Nat.lt_of_not_le fun within =>
        none ⟨number, denotes, positive, within⟩
      rw [same]
      omega

def mixedSetting : List Char :=
  ['\u2003', '+', '0', '_', '\u0661', '\u0968', '\n']

theorem mixedSetting_spells : Spells mixedSetting 12 := by
  have numeral : Numeral ['0', '_', '\u0661', '\u0968'] :=
    (digitValues?_eq_some_iff.mp (show digitValues? _ = some [0, 1, 2] by decide)).1
  exact ⟨['\u2003'], ['+'], _, ['\n'], rfl, List.forall_mem_singleton.mpr rfl, .inr rfl, numeral, by decide,
    List.forall_mem_singleton.mpr rfl⟩

theorem setting_yields_twelve :
    (digitsOf mixedSetting).length ≤ digitLimit ∧
      positiveSetting (some (String.ofList mixedSetting)) (-7) = 12 ∧
      callLimit (some (String.ofList mixedSetting)) = 12 := by
  have few : (digitsOf mixedSetting).length ≤ digitLimit := by decide
  have denotes : Denotes (some (String.ofList mixedSetting)) 12 :=
    ⟨_, rfl, String.toList_ofList.symm ▸ mixedSetting_spells⟩
  obtain ⟨-, settled⟩ := setting_yields_number_or_default (some (String.ofList mixedSetting)) 1000
  obtain ⟨yields, -, limits, -⟩ := settled (by
    rintro _ ⟨⟩
    rwa [String.toList_ofList])
  exact ⟨few, yields (-7) 12 denotes (by decide), limits 12 denotes (by decide) (by decide)⟩

end LazyStack
