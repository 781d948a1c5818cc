import LazyStack.Proofs.Listing

/-!
What a text shows of a value. An open list shows its first items, as many as the options allow, and then a mark if it
has more; each list that is opened leaves one level less for those in it, and at the last level lists are folded. How
many levels and items a quoted code allows is a rule of its own: it is the standard options, and not what is left of
those around it.
-/

namespace LazyStack

def TextOptions.below (options : TextOptions) (depth : Nat) : TextOptions :=
  ⟨options.maxDepth - depth, options.maxItems⟩

theorem TextOptions.below_below (options : TextOptions) (depth more : Nat) :
    (options.below depth).below more = options.below (depth + more) := by
  rw [below, below, below, Nat.sub_sub]

def Value.openText (shown : Value → Written String) (maxItems : Nat) (value : Value) : Written String :=
  enclosed "(" ")" (joined " " ((value.elements.take maxItems).map shown ++
    (if maxItems < value.elements.length then [.ok "..."] else []) ++
    (if value.terminator.tag = .null then [] else [.ok ".", shown value.terminator])))

def Step.shownText (naming : Naming) (shown : Value → Written String) : Step → Written String
  | .push value => shown value
  | step => step.listing naming

def Value.codeText (naming : Naming) (shown : Value → Written String) (value : Value) : Written String :=
  enclosed "\x7b" "\x7d" (joined " " (value.payload.steps.map (Step.shownText naming shown)))

section Congruence

variable {naming : Naming} {shown others : Value → Written String} {maxItems : Nat} {value : Value}

theorem Value.openText_congr (elements : ∀ element ∈ value.elements.take maxItems, shown element = others element)
    (last : value.terminator.tag ≠ .null → shown value.terminator = others value.terminator) :
    value.openText shown maxItems = value.openText others maxItems := by
  rw [openText, openText, List.map_congr_left elements]
  by_cases null : value.terminator.tag = .null
  · rw [if_pos null, if_pos null]
  · rw [if_neg null, if_neg null, last null]

theorem Value.codeText_congr
    (constants : ∀ constant, .push constant ∈ value.payload.steps → shown constant = others constant) :
    value.codeText naming shown = value.codeText naming others := by
  have steps : ∀ step ∈ value.payload.steps, step.shownText naming shown = step.shownText naming others := by
    intro step member
    cases step with
    | push constant => exact constants constant member
    | _ => rfl
  rw [codeText, codeText, List.map_congr_left steps]

end Congruence

/-- A text shows a value under options, the levels of which are counted down. Within a code they become those that
`inCode` makes of them. -/
inductive Value.Shows (naming : Naming) (inCode : TextOptions → TextOptions) :
    TextOptions → Value → Written String → Prop
  | folded {options value} :
      value.tag = .cell → options.maxDepth = 0 → Value.Shows naming inCode options value (.ok "(...)")
  | opened {options value} (shown : Value → Written String) :
      value.tag = .cell → 0 < options.maxDepth →
      (∀ element ∈ value.elements.take options.maxItems,
        Value.Shows naming inCode (options.below 1) element (shown element)) →
      (value.terminator.tag ≠ .null →
        Value.Shows naming inCode (options.below 1) value.terminator (shown value.terminator)) →
      Value.Shows naming inCode options value (value.openText shown options.maxItems)
  | code {options value} (shown : Value → Written String) :
      value.tag = .code →
      (∀ constant, .push constant ∈ value.payload.steps →
        Value.Shows naming inCode (inCode options) constant (shown constant)) →
      Value.Shows naming inCode options value (value.codeText naming shown)
  | plain {options value} :
      value.tag ≠ .cell → value.tag ≠ .code →
      Value.Shows naming inCode options value (value.text naming .standard 0)

/-- Values that the text of a value shows inside its own: the items and the end of a list, and the constants of a
code. -/
inductive Value.PartOf : Value → Value → Prop
  | element {value items last item} : value.Chain items last → item ∈ items → Value.PartOf item value
  | last {value items last} : value.Chain items last → value.tag = .cell → Value.PartOf last value
  | constant {value constant} : .push constant ∈ value.payload.steps → Value.PartOf constant value

section Parts

variable {value part last item : Value} {items : List Value}

theorem Payload.eq_code_of_mem {payload : Payload} {step : Step} (member : step ∈ payload.steps) :
    ∃ steps, payload = .code steps := by
  cases payload with
  | code steps => exact ⟨steps, rfl⟩
  | _ => cases member

theorem Value.Chain.sizeOf_le (chain : value.Chain items last) : sizeOf last ≤ sizeOf value := by
  induction chain with
  | ends _ => exact Nat.le_refl _
  | cell _ ih =>
      simp only [Value.mk.sizeOf_spec, Payload.cell.sizeOf_spec]
      omega

theorem Value.PartOf.sizeOf_lt (partOf : part.PartOf value) : sizeOf part < sizeOf value := by
  cases partOf with
  | element chain member =>
      induction chain with
      | ends _ => cases member
      | cell _ ih =>
          simp only [Value.mk.sizeOf_spec, Payload.cell.sizeOf_spec]
          rcases List.mem_cons.mp member with rfl | further
          · omega
          · have smaller := ih further
            omega
  | last chain cell => cases chain with
      | ends plain => exact absurd cell plain
      | cell rest =>
          have smaller := rest.sizeOf_le
          simp only [Value.mk.sizeOf_spec, Payload.cell.sizeOf_spec]
          omega
  | constant member =>
      obtain ⟨steps, same⟩ := Payload.eq_code_of_mem member
      have smaller := List.sizeOf_lt_of_mem member
      obtain ⟨domain, tag, payload, identity⟩ := value
      subst same
      simp only [Payload.steps, Step.push.sizeOf_spec, Value.mk.sizeOf_spec, Payload.code.sizeOf_spec] at smaller ⊢
      omega

theorem Value.parts_induction {motive : Value → Prop}
    (step : ∀ value, (∀ part : Value, part.PartOf value → motive part) → motive value) (value : Value) :
    motive value := by
  induction size : sizeOf value using Nat.strongRecOn generalizing value with
  | ind size ih =>
      subst size
      exact step value fun part partOf => ih _ partOf.sizeOf_lt part rfl

theorem Value.InPayload.of_constant {inner constant : Value} {payload : Payload}
    (member : .push constant ∈ payload.steps) (inside : inner.Inside constant) : inner.InPayload payload := by
  obtain ⟨steps, rfl⟩ := Payload.eq_code_of_mem member
  have later : ∀ steps : List Step, .push constant ∈ steps → inner.InCode steps := by
    intro steps member
    induction steps with
    | nil => cases member
    | cons step steps ih =>
        rcases List.mem_cons.mp member with rfl | further
        · exact .constant inside
        · exact .later (ih further)
  exact .code (later steps member)

theorem Value.Chain.inside_last {inner : Value} (chain : value.Chain items last) (inside : inner.Inside last) :
    inner.Inside value := by
  induction chain with
  | ends _ => exact inside
  | cell _ ih => exact .part (.tail (ih inside))

theorem Value.PartOf.inside {inner : Value} (partOf : part.PartOf value) (inside : inner.Inside part) :
    inner.Inside value := by
  cases partOf with
  | element chain member =>
      induction chain with
      | ends _ => cases member
      | cell _ ih =>
          rcases List.mem_cons.mp member with rfl | further
          · exact .part (.head inside)
          · exact .part (.tail (ih further))
  | last chain _ => exact chain.inside_last inside
  | constant member =>
      obtain ⟨domain, tag, payload, identity⟩ := value
      exact .part (.of_constant member inside)

end Parts

section Texts

variable {naming : Naming} {options : TextOptions} {value last : Value}
  {items : List Value} {depth : Nat}

theorem Step.listings_eq_map (steps : List Step) :
    Step.listings naming steps =
      steps.map (Step.shownText naming fun constant => constant.text naming .standard 0) := by
  induction steps with
  | nil => simp [Step.listings]
  | cons step steps ih =>
      rw [Step.listings, ih, List.map_cons]
      cases step <;> simp [Step.shownText, Step.listing]

theorem Value.Chain.text_eq (chain : value.Chain items last) (cell : value.tag = .cell)
    (shallow : depth < options.maxDepth) :
    value.text naming options depth =
      value.openText (fun item => item.text naming options (depth + 1)) options.maxItems := by
  have shown : value.payload.items naming options (depth + 1) 0 = value.remainder naming options (depth + 1) 0 := by
    rw [Value.remainder, if_pos cell]
  rw [chain.remainder_eq] at shown
  rw [Value.openText, chain.elements_eq, chain.terminator_eq]
  obtain ⟨domain, tag, payload, identity⟩ := value
  subst cell
  simp only [Value.text, if_neg (show ¬ options.maxDepth ≤ depth by omega), shown, Value.ending, Nat.sub_zero,
    Nat.zero_le, true_and, Nat.zero_add]

theorem Value.text_folded (cell : value.tag = .cell) (deep : options.maxDepth ≤ depth) :
    value.text naming options depth = .ok "(...)" := by
  obtain ⟨domain, tag, payload, identity⟩ := value
  subst cell
  simp only [Value.text, if_pos deep]

theorem Value.text_code (code : value.tag = .code) :
    value.text naming options depth = value.codeText naming fun constant => constant.text naming .standard 0 := by
  obtain ⟨domain, tag, payload, identity⟩ := value
  subst code
  cases payload with
  | code steps => simp only [Value.text, Payload.listing, Step.listings_eq_map, Value.codeText, Payload.steps]
  | _ =>
      simp only [Value.text, Payload.listing, Value.codeText, Payload.steps]
      rfl

theorem Value.text_plain (atomic : value.tag ≠ .cell) (other : value.tag ≠ .code) :
    value.text naming options depth = value.text naming .standard 0 := by
  obtain ⟨domain, tag, payload, identity⟩ := value
  cases tag with
  | cell => exact absurd rfl atomic
  | code => exact absurd rfl other
  | text => cases payload <;> simp only [Value.text]
  | _ => simp only [Value.text]

end Texts

namespace Value.Shows

variable {naming : Naming} {inCode : TextOptions → TextOptions} {options : TextOptions} {value : Value}
  {text other : Written String}

theorem unique (shows : value.Shows naming inCode options text) (also : value.Shows naming inCode options other) :
    text = other := by
  induction shows generalizing other with
  | folded cell none => cases also with
      | folded _ _ => rfl
      | opened _ _ some _ _ => omega
      | code _ code _ => exact nomatch cell.symm.trans code
      | plain atomic _ => exact absurd cell atomic
  | opened shown cell some _ _ elements last => cases also with
      | folded _ none => omega
      | opened others _ _ alike ending =>
          exact openText_congr (fun element member => elements element member (alike element member))
            fun visible => last visible (ending visible)
      | code _ code _ => exact nomatch cell.symm.trans code
      | plain atomic _ => exact absurd cell atomic
  | code shown code _ constants => cases also with
      | folded cell _ => exact nomatch code.symm.trans cell
      | opened _ cell _ _ _ => exact nomatch code.symm.trans cell
      | code others _ alike =>
          exact codeText_congr fun constant member => constants constant member (alike constant member)
      | plain _ other => exact absurd code other
  | plain atomic other => cases also with
      | folded cell _ => exact absurd cell atomic
      | opened _ cell _ _ _ => exact absurd cell atomic
      | code _ code _ => exact absurd code other
      | plain _ _ => rfl

end Value.Shows

section Rules

variable {naming : Naming} {value : Value}

/-- The text of a value shows it under what is left of the options, and what its codes hold under the standard ones. -/
theorem Value.shows_text (naming : Naming)
    (tagged : ∀ inner : Value, inner.Inside value → inner.payload.isInstance inner.tag)
    (options : TextOptions) (depth : Nat) :
    value.Shows naming (fun _ => .standard) (options.below depth) (value.text naming options depth) := by
  induction value using Value.parts_induction generalizing options depth with
  | step value ih =>
      have part {part : Value} (partOf : part.PartOf value) (options : TextOptions) (depth : Nat) :=
        ih part partOf (fun inner inside => tagged inner (partOf.inside inside)) options depth
      by_cases cell : value.tag = .cell
      · by_cases shallow : depth < options.maxDepth
        · obtain ⟨items, last, chain⟩ := Value.exists_chain tagged
          rw [chain.text_eq cell shallow]
          refine .opened _ cell (Nat.sub_pos_of_lt shallow) (fun element member => ?_) (fun _ => ?_)
          · rw [TextOptions.below_below]
            exact part (.element chain (chain.elements_eq ▸ List.mem_of_mem_take member)) options (depth + 1)
          · rw [TextOptions.below_below, chain.terminator_eq]
            exact part (.last chain cell) options (depth + 1)
        · rw [Value.text_folded cell (Nat.le_of_not_lt shallow)]
          exact .folded cell (Nat.sub_eq_zero_of_le (Nat.le_of_not_lt shallow))
      · by_cases code : value.tag = .code
        · -- What is left of the options does not reach the constants of a code.
          rw [Value.text_code code]
          exact .code _ code fun constant member => part (.constant member) .standard 0
        · rw [Value.text_plain cell code]
          exact .plain cell code

theorem Value.Shows.of_listless {inCode other : TextOptions → TextOptions} {options limits : TextOptions}
    {text : Written String}
    (listless : ∀ inner : Value, inner.Inside value → inner.tag ≠ .cell)
    (shows : value.Shows naming inCode options text) : value.Shows naming other limits text := by
  induction value using Value.parts_induction generalizing options limits text with
  | step value ih =>
      cases shows with
      | folded cell _ => exact absurd cell (listless value .itself)
      | opened _ cell _ _ _ => exact absurd cell (listless value .itself)
      | code shown code constants =>
          refine .code shown code fun constant member => ?_
          have partOf : constant.PartOf value := .constant member
          exact ih constant partOf (fun inner inside => listless inner (partOf.inside inside))
            (constants constant member)
      | plain atomic other => exact .plain atomic other

theorem Value.Shows.of_free {inCode other : TextOptions → TextOptions} {options : TextOptions}
    {text : Written String}
    (free : ∀ code inner : Value, code.Inside value → code.tag = .code → inner.InPayload code.payload →
      inner.tag ≠ .cell)
    (tagged : ∀ inner : Value, inner.Inside value → inner.payload.isInstance inner.tag)
    (shows : value.Shows naming inCode options text) : value.Shows naming other options text := by
  induction value using Value.parts_induction generalizing options text with
  | step value ih =>
      have part {part : Value} (partOf : part.PartOf value) {options : TextOptions} {text : Written String}
          (shows : part.Shows naming inCode options text) : part.Shows naming other options text :=
        ih part partOf (fun code inner inside => free code inner (partOf.inside inside))
          (fun inner inside => tagged inner (partOf.inside inside)) shows
      cases shows with
      | folded cell none => exact .folded cell none
      | opened shown cell some elements last =>
          obtain ⟨items, final, chain⟩ := Value.exists_chain tagged
          refine .opened shown cell some (fun element member => ?_) fun visible => ?_
          · exact part (.element chain (chain.elements_eq ▸ List.mem_of_mem_take member)) (elements element member)
          · exact part (.last (chain.terminator_eq ▸ chain) cell) (last visible)
      | code shown code constants =>
          refine .code shown code fun constant member => (constants constant member).of_listless fun inner inside => ?_
          exact free value inner .itself code (.of_constant member inside)
      | plain atomic other => exact .plain atomic other

end Rules

/-- The text of a value shows it under the options, with the standard ones for what its codes hold: a list shows as
many items as allowed, has a mark exactly if there are more, and is folded exactly if it lies too deep. If no list lies
in a code, the options are obeyed everywhere. -/
theorem text_shows_within_limits (naming : Naming) (options : TextOptions) {value : Value}
    (tagged : ∀ inner : Value, inner.Inside value → inner.payload.isInstance inner.tag) :
    (∀ text, value.Shows naming (fun _ => .standard) options text ↔ text = value.text naming options 0) ∧
      ((∀ code inner : Value, code.Inside value → code.tag = .code → inner.InPayload code.payload →
          inner.tag ≠ .cell) →
        ∀ text, value.Shows naming (fun inside => inside) options text ↔ text = value.text naming options 0) := by
  have shows := Value.shows_text naming tagged options 0
  refine ⟨fun text => ⟨fun shown => shown.unique shows, ?_⟩, fun free text => ⟨fun shown => ?_, ?_⟩⟩
  · rintro rfl
    exact shows
  · exact shown.unique (shows.of_free free tagged)
  · rintro rfl
    exact shows.of_free free tagged

def textList : Value :=
  ⟨⟨0⟩, .cell, .cell foreignText firstNull, 8⟩

def listCode : Value :=
  ⟨⟨0⟩, .code, .code [.push textList], 9⟩

def codeAndText : Value :=
  ⟨⟨0⟩, .cell, .cell listCode ⟨⟨0⟩, .cell, .cell foreignText firstNull, 10⟩, 11⟩

theorem textList_tagged {inner : Value} (inside : inner.Inside textList) : inner.payload.isInstance inner.tag := by
  cases inside with
  | itself => decide
  | part inside => cases inside with
      | head inside => exact foreignText_tagged inside
      | tail inside => cases inside with
          | itself => decide
          | part inside => cases inside

theorem codeAndText_tagged (inner : Value) (inside : inner.Inside codeAndText) :
    inner.payload.isInstance inner.tag := by
  cases inside with
  | itself => decide
  | part inside => cases inside with
      | head inside => cases inside with
          | itself => decide
          | part inside => cases inside with
              | code inside => cases inside with
                  | constant inside => exact textList_tagged inside
                  | later inside => cases inside
      | tail inside => cases inside with
          | itself => decide
          | part inside => exact textList_tagged (.part inside)

theorem quoteText_x : quoteText "x" = "\x27x\x27" := by
  decide

theorem codeAndText_text (naming : Naming) :
    codeAndText.text naming ⟨1, 1⟩ 0 = .ok "(\x7b(\x27x\x27)\x7d ...)" := by
  simp [codeAndText, listCode, textList, foreignText, firstNull, Value.text, Payload.items, Payload.listing,
    Step.listings, Step.listing, TextOptions.standard, joined, Except.map, quoteText_x]

theorem listCode_text (naming : Naming) : listCode.text naming ⟨0, 1⟩ 0 = .ok "\x7b(\x27x\x27)\x7d" := by
  simp [listCode, textList, foreignText, firstNull, Value.text, Payload.items, Payload.listing,
    Step.listings, Step.listing, TextOptions.standard, joined, Except.map, quoteText_x]

theorem text_shows_within_limits_of_codeAndText :
    codeAndText.Shows standardOnly.naming (fun _ => .standard) ⟨1, 1⟩ (.ok "(\x7b(\x27x\x27)\x7d ...)") :=
  ((text_shows_within_limits standardOnly.naming ⟨1, 1⟩ codeAndText_tagged).1 _).mpr
    (codeAndText_text standardOnly.naming).symm

/-- A list in a code is opened, although the options leave no level to open. -/
theorem list_in_code_opened_past_limit :
    listCode.text standardOnly.naming ⟨0, 1⟩ 0 = .ok "\x7b(\x27x\x27)\x7d" ∧
      listCode.Shows standardOnly.naming (fun inside => inside) ⟨0, 1⟩ (.ok "\x7b(...)\x7d") ∧
      ¬ listCode.Shows standardOnly.naming (fun inside => inside) ⟨0, 1⟩
        (listCode.text standardOnly.naming ⟨0, 1⟩ 0) := by
  have folded : listCode.Shows standardOnly.naming (fun inside => inside) ⟨0, 1⟩
      (listCode.codeText standardOnly.naming fun _ => .ok "(...)") := by
    refine .code _ rfl fun constant member => ?_
    obtain rfl : constant = textList := by simpa [listCode, Payload.steps] using member
    exact .folded rfl rfl
  refine ⟨listCode_text _, folded, fun shows => ?_⟩
  have same := shows.unique folded
  rw [listCode_text] at same
  exact absurd same (by decide)

end LazyStack
