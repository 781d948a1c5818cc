import Mathlib.Data.Finset.Card
import LazyStack.Proofs.Correspondence

/-!
How texts depend on what they show. Values of one shape have texts that fit each other where the texts of
their callables do, for any way of fitting that the writing of texts respects. So the text of a promise is
the same for any number of unfoldings that is above the number of promises.
-/

namespace LazyStack

/-- A way for texts to fit each other that writing texts around them respects. -/
structure Wording (fit : Written String → Written String → Prop) : Prop where
  refl (text : Written String) : fit text text
  enclosed (opening closing : String) {text other : Written String} :
    fit text other → fit (enclosed opening closing text) (enclosed opening closing other)
  joined (separator : String) {parts others : List (Written String)} :
    List.Forall₂ fit parts others → fit (joined separator parts) (joined separator others)

namespace Written

/-- A text is the same as another, which may go on without end instead. -/
def Refines (text other : Written String) : Prop :=
  text = other ∨ other = .error .endless

/-- There is a text only where there is another. -/
def Needs (text other : Written String) : Prop :=
  text.isOk → other.isOk

theorem isOk_gathered {α : Type} (parts : List (Written α)) : (gathered parts).isOk = parts.all Except.isOk := by
  induction parts with
  | nil => rfl
  | cons part rest ih =>
      rw [List.all_cons, ← ih, gathered]
      cases part with
      | error cause => rfl
      | ok first => cases gathered rest <;> rfl

theorem isOk_map {α β : Type} (wording : α → β) (text : Written α) : (text.map wording).isOk = text.isOk := by
  cases text <;> rfl

theorem wording_eq : Wording Eq where
  refl _ := rfl
  enclosed _ _ _ _ same := by rw [same]
  joined _ _ _ same := congrArg (joined _) (List.forall₂_eq_eq_eq ▸ same)

theorem wording_refines : Wording Refines where
  refl _ := .inl rfl
  enclosed _ _ _ _ := by
    rintro (rfl | rfl)
    · exact .inl rfl
    · exact .inr rfl
  joined separator parts others same := by
    have gathers : gathered parts = gathered others ∨ gathered others = .error .endless := by
      induction same with
      | nil => exact .inl rfl
      | @cons part other _ _ first _ ih =>
          rw [gathered, gathered]
          rcases first with rfl | rfl
          -- Texts before what has no end are the same on both sides, so either may be the first to fail.
          · cases part with
            | error cause => exact .inl rfl
            | ok text =>
                rcases ih with same | endless
                · exact .inl (by rw [same])
                · exact .inr (by rw [endless]; rfl)
          · exact .inr rfl
    rcases gathers with same | endless
    · exact .inl (by rw [LazyStack.joined, LazyStack.joined, same])
    · exact .inr (by rw [LazyStack.joined, endless]; rfl)

theorem wording_needs : Wording Needs where
  refl _ := id
  enclosed _ _ _ _ needs := by
    rw [Needs, LazyStack.enclosed, LazyStack.enclosed, isOk_map, isOk_map]
    exact needs
  joined _ _ _ needs := by
    rw [Needs, LazyStack.joined, LazyStack.joined, isOk_map, isOk_map, isOk_gathered, isOk_gathered]
    induction needs with
    | nil => exact id
    | cons first _ ih =>
        rw [List.all_cons, List.all_cons, Bool.and_eq_true, Bool.and_eq_true]
        exact And.imp first ih

end Written

section ReadsAs

variable (fit : Written String → Written String → Prop) (naming other : Naming)

-- A value is of the shape of another down to its callables, in code too, so the three come together.
mutual

inductive Value.ReadsAs : Value → Value → Prop
  | made {domain like tag payload datum identity number} :
      naming.typeName domain tag = other.typeName like tag → Payload.ReadsAs payload datum →
      Value.ReadsAs ⟨domain, tag, payload, identity⟩ ⟨like, tag, datum, number⟩

inductive Payload.ReadsAs : Payload → Payload → Prop
  | atom {payload : Payload} : payload.atomic → Payload.ReadsAs payload payload
  | cell {head tail first rest} :
      Value.ReadsAs head first → Value.ReadsAs tail rest →
      Payload.ReadsAs (.cell head tail) (.cell first rest)
  | code {steps likes} : Code.ReadsAs steps likes → Payload.ReadsAs (.code steps) (.code likes)
  | callable {target like} :
      fit (target.text naming) (like.text other) → Payload.ReadsAs (.callable target) (.callable like)

inductive Code.ReadsAs : List Step → List Step → Prop
  | nil : Code.ReadsAs [] []
  | push {value like rest further} :
      Value.ReadsAs value like → Code.ReadsAs rest further →
      Code.ReadsAs (.push value :: rest) (.push like :: further)
  | same {step rest further} :
      (∀ value, step ≠ .push value) → Code.ReadsAs rest further → Code.ReadsAs (step :: rest) (step :: further)

end

end ReadsAs

variable {fit : Written String → Written String → Prop} {naming other : Naming}

theorem Value.ReadsAs.angled (wording : Wording fit) {value like : Value}
    (reads : value.ReadsAs fit naming other like) {text further : Written String} (fits : fit text further) :
    fit (angled naming value text) (angled other like further) := by
  cases reads with
  | made typeName _ =>
      rw [LazyStack.angled, LazyStack.angled, typeName]
      exact wording.enclosed _ _ fits

theorem Step.listing_same (step : Step) (apart : ∀ value, step ≠ .push value) :
    step.listing naming = step.listing other ∧ step.quoted naming = step.quoted other := by
  cases step with
  | push value => exact absurd rfl (apart value)
  | _ => exact ⟨by simp only [Step.listing], by simp only [Step.quoted]⟩

mutual

theorem Value.ReadsAs.text (wording : Wording fit) (options : TextOptions) (depth : Nat) :
    {value like : Value} → value.ReadsAs fit naming other like →
      fit (value.text naming options depth) (like.text other options depth)
  | ⟨_, tag, payload, _⟩, ⟨_, _, datum, _⟩, .made _ reads => by
      have bare := reads.bare wording
      have items := reads.items wording options (depth + 1) 0
      have listing := reads.listing wording
      cases tag with
      | null =>
          rw [Value.text, Value.text]
          exact wording.refl _
      | symbol =>
          rw [Value.text, Value.text]
          exact wording.enclosed _ _ bare
      | text => cases reads with
          | @atom _ atomic => cases payload with
            | text =>
                rw [Value.text, Value.text]
                exact wording.refl _
            | _ => simpa only [Value.text] using bare
          | _ => simpa only [Value.text] using bare
      | bool => cases reads with
          | atom => simpa only [Value.text] using wording.refl _
          | _ => simpa only [Value.text] using wording.refl _
      | cell =>
          rw [Value.text, Value.text]
          split
          · exact wording.refl _
          · exact wording.enclosed _ _ (wording.joined _ items)
      | code =>
          rw [Value.text, Value.text]
          exact wording.enclosed _ _ listing
      | _ => simpa only [Value.text] using bare

theorem Payload.ReadsAs.items (wording : Wording fit) (options : TextOptions) (depth index : Nat) :
    {payload datum : Payload} → payload.ReadsAs fit naming other datum →
      List.Forall₂ fit (payload.items naming options depth index) (datum.items other options depth index)
  | .cell item ⟨_, tag, _, _⟩, .cell like _, .cell head tail@(.made _ reads) => by
      have shown := head.text wording options depth
      have rest := reads.items wording options depth (index + 1)
      have last := tail.text wording options depth
      have items : List.Forall₂ fit
          (if index < options.maxItems then [item.text naming options depth]
            else if index = options.maxItems then [.ok "..."] else [])
          (if index < options.maxItems then [like.text other options depth]
            else if index = options.maxItems then [.ok "..."] else []) := by
        split
        · exact .cons shown .nil
        · split
          · exact .cons (wording.refl _) .nil
          · exact .nil
      cases tag with
      | cell => simpa only [Payload.items] using List.rel_append items rest
      | null => simpa only [Payload.items] using List.rel_append items .nil
      | _ => simpa only [Payload.items] using List.rel_append items (.cons (wording.refl _) (.cons last .nil))
  | payload, _, .atom atomic => by
      cases payload with
      | cell => cases atomic
      | _ => simp only [Payload.items, List.Forall₂.nil]
  | _, _, .code _ => by simp only [Payload.items, List.Forall₂.nil]
  | _, _, .callable _ => by simp only [Payload.items, List.Forall₂.nil]

theorem Payload.ReadsAs.listing (wording : Wording fit) :
    {payload datum : Payload} → payload.ReadsAs fit naming other datum →
      fit (payload.listing naming) (datum.listing other)
  | _, _, .code steps => by
      rw [Payload.listing, Payload.listing]
      exact wording.joined _ (steps.listings wording)
  | payload, _, .atom atomic => by
      cases payload with
      | code => cases atomic
      | _ => simpa only [Payload.listing] using wording.refl _
  | _, _, .cell _ _ => by simpa only [Payload.listing] using wording.refl _
  | _, _, .callable _ => by simpa only [Payload.listing] using wording.refl _

theorem Payload.ReadsAs.bare (wording : Wording fit) :
    {payload datum : Payload} → payload.ReadsAs fit naming other datum →
      fit (payload.bare naming) (datum.bare other)
  | _, _, .cell head tail => by
      have first := head.angled wording (head.text wording .standard 0)
      have rest := tail.angled wording (tail.text wording .standard 0)
      rw [Payload.bare, Payload.bare]
      exact wording.enclosed _ _ (wording.joined _ (.cons first (.cons rest .nil)))
  | _, _, .code steps => by
      rw [Payload.bare, Payload.bare]
      exact wording.enclosed _ _ (wording.enclosed _ _ (wording.joined _ (steps.quotedAll wording)))
  | _, _, .callable target => by simpa only [Payload.bare] using target
  | payload, _, .atom atomic => by
      cases payload with
      | cell | code | callable => cases atomic
      | _ => simpa only [Payload.bare] using wording.refl _

theorem Code.ReadsAs.listings (wording : Wording fit) :
    {code like : List Step} → Code.ReadsAs fit naming other code like →
      List.Forall₂ fit (Step.listings naming code) (Step.listings other like)
  | _, _, .nil => by simp only [Step.listings, List.Forall₂.nil]
  | _, _, .push value rest => by
      have first := value.text wording .standard 0
      rw [Step.listings, Step.listings, Step.listing, Step.listing]
      exact .cons first (rest.listings wording)
  | step :: _, _, .same apart rest => by
      rw [Step.listings, Step.listings, (step.listing_same apart).1]
      exact .cons (wording.refl _) (rest.listings wording)

theorem Code.ReadsAs.quotedAll (wording : Wording fit) :
    {code like : List Step} → Code.ReadsAs fit naming other code like →
      List.Forall₂ fit (Step.quotedAll naming code) (Step.quotedAll other like)
  | _, _, .nil => by simp only [Step.quotedAll, List.Forall₂.nil]
  | _, _, .push value rest => by
      have first := wording.enclosed "Value(" ")" (value.text wording .standard 0)
      rw [Step.quotedAll, Step.quotedAll, Step.quoted, Step.quoted]
      exact .cons first (rest.quotedAll wording)
  | step :: _, _, .same apart rest => by
      rw [Step.quotedAll, Step.quotedAll, (step.listing_same apart).2]
      exact .cons (wording.refl _) (rest.quotedAll wording)

end

theorem Payload.ReadsAs.quoted (wording : Wording fit) {payload datum : Payload}
    (reads : payload.ReadsAs fit naming other datum) : fit (payload.quoted naming) (datum.quoted other) := by
  have bare := reads.bare wording
  cases reads with
  | atom => cases payload with
    | text | symbol => exact wording.refl _
    | _ => exact bare
  | _ => exact bare

structure Naming.Fits (fit : Written String → Written String → Prop) (naming other : Naming) : Prop where
  typeName : naming.typeName = other.typeName
  promise (id : PromiseId) : fit (naming.promise id) (other.promise id)

mutual

theorem Value.readsAs_self (wording : Wording fit) (namings : naming.Fits fit other) :
    (value : Value) → value.ReadsAs fit naming other value
  | ⟨_, _, payload, _⟩ => .made (by rw [namings.typeName]) (payload.readsAs_self wording namings)

theorem Payload.readsAs_self (wording : Wording fit) (namings : naming.Fits fit other) :
    (payload : Payload) → payload.ReadsAs fit naming other payload
  | .null _ | .bool _ | .int _ | .float _ | .text _ | .symbol _ | .bytes _ => .atom rfl
  | .cell head tail => .cell (head.readsAs_self wording namings) (tail.readsAs_self wording namings)
  | .code steps => .code (Code.readsAs_self wording namings steps)
  | .callable target => .callable <| by
      cases target with
      | promise id => exact namings.promise id
      | _ => exact wording.refl _

theorem Code.readsAs_self (wording : Wording fit) (namings : naming.Fits fit other) :
    (code : List Step) → Code.ReadsAs fit naming other code code
  | [] => .nil
  | .push value :: rest => .push (value.readsAs_self wording namings) (Code.readsAs_self wording namings rest)
  | .get _ :: rest | .call _ _ _ :: rest | .note _ :: rest =>
      .same (by rintro _ ⟨⟩) (Code.readsAs_self wording namings rest)

end

section Fits

variable (wording : Wording fit) (namings : naming.Fits fit other)
include wording namings

theorem Naming.Fits.text (value : Value) (options : TextOptions) (depth : Nat) :
    fit (value.text naming options depth) (value.text other options depth) :=
  (value.readsAs_self wording namings).text wording options depth

theorem Naming.Fits.quoted (payload : Payload) : fit (payload.quoted naming) (payload.quoted other) :=
  (payload.readsAs_self wording namings).quoted wording

end Fits

namespace State

variable {state left right : State}

theorem promise_of_missing {id : PromiseId} (missing : ¬ left.HasPromise id) (also : ¬ right.HasPromise id) :
    left.promise id = right.promise id := by
  rw [promise, promise, Array.getElem?_eq_none (Nat.not_lt.mp missing),
    Array.getElem?_eq_none (Nat.not_lt.mp also)]

theorem promises_ext (sized : left.promises.size = right.promises.size)
    (same : ∀ id, left.HasPromise id → left.promise id = right.promise id) : left.promises = right.promises := by
  refine Array.ext sized fun index here there => ?_
  have equal := same ⟨index⟩ here
  rwa [promise, promise, Array.getElem?_eq_getElem here, Array.getElem?_eq_getElem there] at equal

theorem promiseText_succ_of_pending {id : PromiseId} (pending : (state.promise id).value = none) (unfoldings : Nat) :
    state.promiseText (unfoldings + 1) id = .ok "<promise>" := by
  rw [promiseText, pending]

theorem promiseText_succ_of_value {id : PromiseId} {value : Value}
    (resolved : (state.promise id).value = some value) (unfoldings : Nat) :
    state.promiseText (unfoldings + 1) id = enclosed "<promise = " ">"
      (value.text ⟨state.typeName, state.promiseText unfoldings⟩ .standard 0) := by
  rw [promiseText, resolved]

theorem promiseText_refines (state : State) (unfoldings : Nat) (id : PromiseId) :
    Written.Refines (state.promiseText (unfoldings + 1) id) (state.promiseText unfoldings id) := by
  induction unfoldings generalizing id with
  | zero => exact .inr rfl
  | succ unfoldings ih =>
      cases resolved : (state.promise id).value with
      | none =>
          rw [promiseText_succ_of_pending resolved, promiseText_succ_of_pending resolved]
          exact .inl rfl
      | some value =>
          rw [promiseText_succ_of_value resolved, promiseText_succ_of_value resolved]
          have namings : Naming.Fits Written.Refines ⟨state.typeName, state.promiseText (unfoldings + 1)⟩
              ⟨state.typeName, state.promiseText unfoldings⟩ := ⟨rfl, ih⟩
          exact Written.wording_refines.enclosed _ _ (namings.text Written.wording_refines value .standard 0)

theorem promiseText_settled {state : State} {unfoldings : Nat}
    (settled : state.promiseText (unfoldings + 1) = state.promiseText unfoldings) {more : Nat}
    (most : unfoldings ≤ more) : state.promiseText more = state.promiseText unfoldings := by
  induction more, most using Nat.le_induction with
  | base => rfl
  | succ further _ ih =>
      rw [← settled]
      funext id
      rw [promiseText, promiseText, ih]

section Settling

open Classical in
noncomputable def unended (state : State) (unfoldings : Nat) : Finset Nat :=
  (Finset.range state.promises.size).filter fun index => state.promiseText unfoldings ⟨index⟩ = .error .endless

theorem unended_subset (state : State) (unfoldings : Nat) :
    state.unended (unfoldings + 1) ⊆ state.unended unfoldings := by
  intro index member
  simp only [unended, Finset.mem_filter] at member ⊢
  rcases state.promiseText_refines unfoldings ⟨index⟩ with same | endless
  · exact ⟨member.1, same ▸ member.2⟩
  · exact ⟨member.1, endless⟩

theorem promiseText_settled_of_unended {state : State} {unfoldings : Nat}
    (same : state.unended (unfoldings + 1) ⊆ state.unended (unfoldings + 2)) :
    state.promiseText (unfoldings + 2) = state.promiseText (unfoldings + 1) := by
  funext id
  rcases state.promiseText_refines (unfoldings + 1) id with settled | endless
  · exact settled
  · by_cases there : state.HasPromise id
    · have member : id.index ∈ state.unended (unfoldings + 1) := by
        simp only [unended, Finset.mem_filter, Finset.mem_range]
        exact ⟨there, endless⟩
      have still := same member
      simp only [unended, Finset.mem_filter] at still
      exact still.2.trans endless.symm
    · have pending : (state.promise id).value = none := by
        rw [promise, Array.getElem?_eq_none (Nat.not_lt.mp there)]
        rfl
      rw [promiseText_succ_of_pending pending, promiseText_succ_of_pending pending]

/-- Each unfolding settles all texts or brings one more to its end. -/
theorem promiseText_settles (state : State) (unfoldings : Nat) :
    state.promiseText (unfoldings + 2) = state.promiseText (unfoldings + 1) ∨
      (state.unended (unfoldings + 1)).card + unfoldings ≤ state.promises.size := by
  induction unfoldings with
  | zero =>
      have few : (state.unended 1).card ≤ (Finset.range state.promises.size).card := Finset.card_filter_le _ _
      rw [Finset.card_range] at few
      exact .inr few
  | succ unfoldings ih =>
      by_cases same : state.unended (unfoldings + 1) ⊆ state.unended (unfoldings + 2)
      · have settled := promiseText_settled_of_unended same
        exact .inl (promiseText_settled settled (Nat.le_add_right _ 2) |>.trans settled.symm)
      · rcases ih with settled | few
        · exact .inl (promiseText_settled settled (Nat.le_add_right _ 2) |>.trans settled.symm)
        · have fewer := Finset.card_lt_card ⟨state.unended_subset (unfoldings + 1), same⟩
          exact .inr (by omega)

/-- A promise is shown within its own text if the text has no end after as many unfoldings as there are
promises, and one more. -/
theorem promiseText_enough (state : State) {unfoldings : Nat} (enough : state.promises.size < unfoldings) :
    state.promiseText unfoldings = state.promiseText (state.promises.size + 1) := by
  refine promiseText_settled ?_ enough
  rcases state.promiseText_settles state.promises.size with settled | few
  · exact settled
  · have none : state.unended (state.promises.size + 1) = ∅ := Finset.card_eq_zero.mp (by omega)
    exact promiseText_settled_of_unended (none ▸ Finset.empty_subset _)

end Settling

theorem promiseText_eq {related : PromiseId → PromiseId → Prop}
    (alike : ∀ {unfoldings}, (∀ {one two}, related one two →
        left.promiseText unfoldings one = right.promiseText unfoldings two) →
      ∀ {id like}, related id like →
        Option.Rel (Value.ReadsAs Eq ⟨left.typeName, left.promiseText unfoldings⟩
          ⟨right.typeName, right.promiseText unfoldings⟩) (left.promise id).value (right.promise like).value)
    {id like : PromiseId} (paired : related id like) : left.naming.promise id = right.naming.promise like := by
  have same (unfoldings : Nat) : ∀ {one two}, related one two →
      left.promiseText unfoldings one = right.promiseText unfoldings two := by
    induction unfoldings with
    | zero => exact fun _ => rfl
    | succ unfoldings ih =>
        intro one two paired
        have values := alike ih paired
        rw [promiseText, promiseText]
        generalize (left.promise one).value = value at values
        generalize (right.promise two).value = answer at values
        cases values with
        | none => rfl
        | some reads => exact congrArg (enclosed _ _) (reads.text Written.wording_eq .standard 0)
  -- Each side unfolds as often as its own promises ask for, which is no less than the other side needs.
  have most := same (max left.promises.size right.promises.size + 1) paired
  rwa [left.promiseText_enough (by omega), right.promiseText_enough (by omega)] at most

section Outdated

variable (domains : left.domains = right.domains) (sized : left.promises.size = right.promises.size)
  (kept : ∀ id, left.promise id = right.promise id ∨ (right.promise id).value = none)
include domains

omit domains in
theorem typeName_of_same (domains : left.domains = right.domains) : left.typeName = right.typeName := by
  funext domain tag
  rw [typeName, typeName, State.domain, State.domain, domains]

include kept

theorem promiseText_needs (unfoldings : Nat) (id : PromiseId) :
    Written.Needs (left.promiseText unfoldings id) (right.promiseText unfoldings id) := by
  induction unfoldings generalizing id with
  | zero => exact fun written => written
  | succ unfoldings ih =>
      rcases kept id with same | pending
      · rw [promiseText, promiseText, same]
        cases (right.promise id).value with
        | none => exact fun _ => rfl
        | some value =>
            have namings : Naming.Fits Written.Needs ⟨left.typeName, left.promiseText unfoldings⟩
                ⟨right.typeName, right.promiseText unfoldings⟩ := ⟨typeName_of_same domains, ih⟩
            exact Written.wording_needs.enclosed _ _ (namings.text Written.wording_needs value .standard 0)
      · rw [promiseText_succ_of_pending pending]
        exact fun _ => rfl

include sized

theorem naming_needs : left.naming.Fits Written.Needs right.naming := by
  refine ⟨typeName_of_same domains, fun id => ?_⟩
  rw [State.naming, State.naming, ← sized]
  exact promiseText_needs domains kept _ id

end Outdated

end State

/-- Names under which things that are alike have the same texts. -/
structure Naming.Alike (shared : Shared) (pairing : Pairing) (naming other : Naming) : Prop where
  typeName {domain : DomainId} {tag : Tag} :
    shared.domains domain → naming.typeName domain tag = other.typeName domain tag
  promise {id like : PromiseId} : pairing.promises id like → naming.promise id = other.promise like

section Alike

variable {shared : Shared} {pairing : Pairing}

mutual

theorem Value.Alike.readsAs (namings : naming.Alike shared pairing other) {value like : Value} :
    value.Alike shared pairing like → value.ReadsAs Eq naming other like
  | .made known same _ => .made (namings.typeName known) (same.readsAs namings)

theorem Payload.Alike.readsAs (namings : naming.Alike shared pairing other) {payload datum : Payload} :
    payload.Alike shared pairing datum → payload.ReadsAs Eq naming other datum
  | .atom atomic => .atom atomic
  | .cell head tail => .cell (head.readsAs namings) (tail.readsAs namings)
  | .code steps => .code (steps.readsAs namings)
  | .callable target => .callable (target.text_eq namings)

theorem Callable.Alike.text_eq (namings : naming.Alike shared pairing other) {target like : Callable} :
    target.Alike shared pairing like → target.text naming = like.text other
  | .promise id => namings.promise id
  | .closure _ _ | .makeClosure _ | .delay | .force | .isPromise | .host _ => rfl

theorem CodeShared.readsAs (namings : naming.Alike shared pairing other) {code : List Step} :
    CodeShared shared pairing code → Code.ReadsAs Eq naming other code code
  | .nil => .nil
  | .push value rest => .push (value.readsAs namings) (rest.readsAs namings)
  | .get _ rest | .call _ rest | .note rest => .same (by rintro _ ⟨⟩) (rest.readsAs namings)

end

namespace State.Alike

variable {left right : State} (alike : left.Alike shared pairing right)
include alike

theorem namings : left.naming.Alike shared pairing right.naming := by
  have typeName {domain : DomainId} {tag : Tag} (known : shared.domains domain) :
      left.typeName domain tag = right.typeName domain tag := by
    rw [State.typeName, State.typeName, (alike.domains known).1]
  refine ⟨typeName, promiseText_eq fun {unfoldings} below id like paired => ?_⟩
  have namings : Naming.Alike shared pairing ⟨left.typeName, left.promiseText unfoldings⟩
      ⟨right.typeName, right.promiseText unfoldings⟩ := ⟨typeName, below⟩
  exact rel_imp (fun value => value.readsAs namings) (alike.promises paired).2.2.value

theorem valueText_eq {value other : Value} (same : value.Alike shared pairing other) :
    left.valueText value = right.valueText other :=
  (same.readsAs alike.namings).text Written.wording_eq .standard 0

theorem payloadQuoted_eq {payload other : Payload} (same : payload.Alike shared pairing other) :
    left.payloadQuoted payload = right.payloadQuoted other :=
  (same.readsAs alike.namings).quoted Written.wording_eq

end State.Alike

end Alike

end LazyStack
