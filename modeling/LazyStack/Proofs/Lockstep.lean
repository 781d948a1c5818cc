import LazyStack.Proofs.Resemblance

/-!
Runs in lockstep. From any two states that mirror each other, two runs in lockstep both succeed with results
that are alike or both fail with one failure, and the states mirror each other again. Single operations on
like things are in lockstep, and so is whatever is made of them.
-/

namespace LazyStack

namespace Run

variable {α β γ δ : Type} {settled : Prop} {pairs : Counterparts}

/-- How two outcomes belong together, given the states that the two runs began from. -/
inductive Together (settled : Prop) (pairs : Counterparts) (fit : Counterparts → α → β → Prop)
    (left right : State) : EStateM.Result Failure State α → EStateM.Result Failure State β → Prop
  | ends {wider result answer after later} :
      State.Advance settled pairs wider left right after later → fit wider result answer →
      Together settled pairs fit left right (.ok result after) (.ok answer later)
  | fails {wider failure after later} :
      State.Advance settled pairs wider left right after later →
      Together settled pairs fit left right (.error failure after) (.error failure later)

def Lockstep (settled : Prop) (pairs : Counterparts) (fit : Counterparts → α → β → Prop) (run : Run α)
    (other : Run β) : Prop :=
  ∀ ⦃left right⦄, left.Mirrors pairs right → Together settled pairs fit left right (run left) (other right)

theorem Lockstep.pure {fit : Counterparts → α → β → Prop} {result : α} {answer : β}
    (fits : fit pairs result answer) : Lockstep settled pairs fit (pure result) (pure answer) :=
  fun _ _ mirrors => .ends mirrors.stay fits

theorem Lockstep.throw {fit : Counterparts → α → β → Prop} (failure : Failure) :
    Lockstep settled pairs fit (throw failure) (throw failure) :=
  fun _ _ mirrors => .fails mirrors.stay

theorem Lockstep.get : Lockstep settled pairs State.Mirrors (get : Run State) get :=
  fun _ _ mirrors => .ends mirrors.stay mirrors

theorem Together.after {fit : Counterparts → α → β → Prop} {wider : Counterparts}
    {left right middle reached : State} {outcome : EStateM.Result Failure State α}
    {other : EStateM.Result Failure State β}
    (together : Together settled wider fit middle reached outcome other)
    (advance : State.Advance settled pairs wider left right middle reached) :
    Together settled pairs fit left right outcome other := by
  cases together with
  | ends more fits => exact .ends (advance.trans more) fits
  | fails more => exact .fails (advance.trans more)

theorem Lockstep.bind {fit : Counterparts → α → β → Prop} {suits : Counterparts → γ → δ → Prop}
    {run : Run α} {other : Run β} {next : α → Run γ} {rest : β → Run δ}
    (first : Lockstep settled pairs fit run other)
    (later : ∀ {wider result answer}, pairs.Within wider → fit wider result answer →
      Lockstep settled wider suits (next result) (rest answer)) :
    Lockstep settled pairs suits (run >>= next) (other >>= rest) := by
  intro left right mirrors
  have together := first mirrors
  rw [Run.bind_apply, Run.bind_apply]
  generalize run left = outcome at together ⊢
  generalize other right = reached at together ⊢
  cases together with
  | ends advance fits => exact (later advance.within fits advance.mirrors).after advance
  | fails advance => exact .fails advance

theorem Lockstep.ite {fit : Counterparts → α → β → Prop} {one two : Prop} [Decidable one] [Decidable two]
    {run rest : Run α} {other further : Run β} (same : one ↔ two)
    (yes : Lockstep settled pairs fit run other) (no : Lockstep settled pairs fit rest further) :
    Lockstep settled pairs fit (if one then run else rest) (if two then other else further) := by
  by_cases holds : one
  · rw [if_pos holds, if_pos (same.mp holds)]
    exact yes
  · rw [if_neg holds, if_neg fun also => holds (same.mpr also)]
    exact no

theorem Lockstep.outcome {fit : Counterparts → α → β → Prop} {run : Run α} {other : Run β}
    (lockstep : Lockstep settled pairs fit run other) :
    Lockstep settled pairs (fun wider => Attempted (fit wider)) (Run.outcome run) (Run.outcome other) := by
  intro left right mirrors
  have together := lockstep mirrors
  rw [Run.outcome, Run.outcome]
  generalize run left = outcome at together ⊢
  generalize other right = reached at together ⊢
  cases together with
  | ends advance fits => exact .ends advance (.ok fits)
  | @fails _ failure _ _ advance =>
      dsimp only
      by_cases spent : failure.kind = .budget
      · rw [if_pos spent, if_pos spent]
        exact .fails advance
      · rw [if_neg spent, if_neg spent]
        exact .ends advance .error

end Run

namespace State.Mirrors

variable {settled : Prop} {pairs : Counterparts} {left right : State} (mirrors : left.Mirrors pairs right)
include mirrors

theorem operands {stack other : StackId} (paired : pairs (.stack stack) (.stack other)) :
    Value.AllMirror pairs (left.operands stack) (right.operands other) :=
  mirrors.agree paired

theorem scope {scope other : ScopeId} (paired : pairs (.scope scope) (.scope other)) :
    (left.scope scope).Mirrors pairs (right.scope other) :=
  (mirrors.agree paired : State.Agree pairs left right (.scope scope) (.scope other)).1

theorem promise {id other : PromiseId} (paired : pairs (.promise id) (.promise other)) :
    (left.promise id).Mirrors pairs (right.promise other) :=
  mirrors.agree paired

theorem domain {domain other : DomainId} (paired : pairs (.domain domain) (.domain other)) :
    (left.domain domain).Mirrors pairs domain other (right.domain other) :=
  mirrors.agree paired

theorem host {id other : HostId} (paired : pairs (.host id) (.host other)) :
    HostBody.Mirrors pairs (left.hostBody id) (right.hostBody other) ∧
      (left.memory id).Mirrors pairs (right.memory other) :=
  mirrors.agree paired

theorem operate {stack other : StackId} (paired : pairs (.stack stack) (.stack other))
    {values others : Operands} (same : Value.AllMirror pairs values others) :
    State.Advance settled pairs pairs left right (left.setOperands stack values)
      (right.setOperands other others) := by
  refine mirrors.touch paired (State.becomes_setOperands left stack values)
    (State.becomes_setOperands right other others) (fun _ _ equal => by cases equal) ?_ rfl rfl
  obtain ⟨made, there⟩ := mirrors.has paired
  rw [State.Agree, State.operands_setOperands_self made, State.operands_setOperands_self there]
  exact same

theorem bind {scope other : ScopeId} (paired : pairs (.scope scope) (.scope other)) (name : String)
    {binding like : Binding} (same : binding.Mirrors pairs like) :
    State.Advance settled pairs pairs left right (left.bind scope name binding)
      (right.bind other name like) := by
  refine mirrors.touch paired (State.becomes_setScope left scope _) (State.becomes_setScope right other _)
    (fun _ _ equal => by cases equal) ?_ rfl rfl
  obtain ⟨made, there⟩ := mirrors.has paired
  obtain ⟨scopes, older, old⟩ :
      (left.scope scope).Mirrors pairs (right.scope other) ∧ left.ParentOlder scope ∧
        right.ParentOlder other := mirrors.agree paired
  rw [State.Agree, State.ParentOlder, State.ParentOlder, State.bind, State.bind,
    State.scope_setScope_self made, State.scope_setScope_self there]
  exact ⟨⟨scopes.bindings.put name same, scopes.parent⟩, older, old⟩

theorem settle {id other : PromiseId} (paired : pairs (.promise id) (.promise other)) {value like : Value}
    (same : value.Mirrors pairs like) :
    State.Advance settled pairs pairs left right (left.resolve id value) (right.resolve other like) := by
  refine mirrors.touch paired (State.becomes_resolve left id value) (State.becomes_resolve right other like)
    (fun _ _ equal => by cases equal) ?_ rfl rfl
  obtain ⟨made, there⟩ := mirrors.has paired
  rw [State.Agree, State.promise_resolve_self made, State.promise_resolve_self there]
  exact ⟨.none, .none, .some same⟩

theorem identify :
    State.Advance settled pairs
      (pairs.join (.one (.identity left.nextIdentity) (.identity right.nextIdentity))) left right
      left.identifying right.identifying :=
  mirrors.make (State.becomes_identifying left) (State.becomes_identifying right) trivial rfl rfl

theorem openScope {parent around : Option ScopeId}
    (linked : Option.Rel (fun one two => pairs (.scope one) (.scope two)) parent around) :
    State.Advance settled pairs
      (pairs.join (.one (.scope ⟨left.scopes.size⟩) (.scope ⟨right.scopes.size⟩))) left right
      (left.scoping ⟨[], parent⟩) (right.scoping ⟨[], around⟩) := by
  refine mirrors.make (State.becomes_scoping left _) (State.becomes_scoping right _) ?_ rfl rfl
  rw [State.Agree, State.ParentOlder, State.ParentOlder, State.scope_scoping, State.scope_scoping,
    if_pos rfl, if_pos rfl]
  refine ⟨⟨.nil, rel_imp (fun paired => pairs.within_join _ paired) linked⟩, ?_⟩
  cases linked with
  | none =>
      constructor
      · rintro _ ⟨⟩
      · rintro _ ⟨⟩
  | some paired =>
      constructor
      · rintro _ ⟨⟩
        exact (mirrors.has paired).1
      · rintro _ ⟨⟩
        exact (mirrors.has paired).2

theorem openStack :
    State.Advance settled pairs
      (pairs.join (.one (.stack ⟨left.operandStacks.size⟩) (.stack ⟨right.operandStacks.size⟩))) left right
      left.stacking right.stacking := by
  refine mirrors.make (State.becomes_stacking left) (State.becomes_stacking right) ?_ rfl rfl
  rw [State.Agree, State.operands_stacking, State.operands_stacking, if_pos rfl, if_pos rfl]
  exact .nil

theorem delay {promise like : Promise} (same : promise.Mirrors pairs like) :
    State.Advance settled pairs
      (pairs.join (.one (.promise ⟨left.promises.size⟩) (.promise ⟨right.promises.size⟩))) left right
      (left.delaying promise) (right.delaying like) := by
  refine mirrors.make (State.becomes_delaying left promise) (State.becomes_delaying right like) ?_ rfl rfl
  rw [State.Agree, State.delaying, State.delaying, State.promise_push, State.promise_push, if_pos rfl,
    if_pos rfl]
  exact same.mono (pairs.within_join _)

theorem record {event other : Event} (same : event.message = other.message) :
    State.Advance settled pairs pairs left right (left.record event) (right.record other) := by
  have advance : State.Advance settled pairs (pairs.join fun _ _ => False) left right (left.record event)
      (right.record other) :=
    mirrors.advance (State.becomes_record left event) (State.becomes_record right other)
      (fun _ _ _ _ none => none.elim) (fun none => none.elim) (fun none => by cases none)
      (fun none => by cases none) (fun _ _ none => by cases none)
      (fun _ none => by rcases none with none | none <;> cases none) (fun none => none.elim)
      ⟨[event], [other], by simp [State.record], by simp [State.record], by simp [List.filterMap, same]⟩
  rwa [Counterparts.join_none] at advance

theorem remember {host other : HostId} (paired : pairs (.memory host) (.memory other)) {memory like : Memory}
    (same : memory.Mirrors pairs like) :
    State.Advance settled pairs pairs left right (left.remember host memory) (right.remember other like) := by
  have hosts : pairs (.host host) (.host other) := mirrors.agree paired
  have bodies := (mirrors.host hosts).1
  have made := Nat.lt_of_lt_of_eq (mirrors.has hosts).1 mirrors.counted.1.symm
  have there := Nat.lt_of_lt_of_eq (mirrors.has hosts).2 mirrors.counted.2.symm
  have advance : State.Advance settled pairs (pairs.join fun _ _ => False) left right
      (left.remember host memory) (right.remember other like) := by
    refine mirrors.advance (State.becomes_remember left host _) (State.becomes_remember right other _)
      (fun _ _ _ _ none => none.elim) (fun none => none.elim) (fun none => by cases none) ?_
      (fun _ _ reached => by simp at reached) ?_ (fun none => none.elim)
      ⟨[], [], by simp [State.remember], by simp [State.remember], rfl⟩
    · intro reached changed
      rw [List.mem_pair] at changed
      rcases changed with rfl | rfl
      · exact ⟨_, hosts⟩
      · exact ⟨_, paired⟩
    · intro thing like known reached
      rw [List.mem_pair, List.mem_pair, mirrors.oneToOne known hosts, mirrors.oneToOne known paired,
        or_self] at reached
      rcases reached with rfl | rfl
      · rw [(mirrors.oneToOne known hosts).mpr rfl, State.Agree, State.memory_remember,
          State.memory_remember, if_pos ⟨rfl, made⟩, if_pos ⟨rfl, there⟩]
        exact ⟨bodies.mono (pairs.within_join _), same.mono (pairs.within_join _)⟩
      · rw [(mirrors.oneToOne known paired).mpr rfl, State.Agree]
        exact pairs.within_join _ hosts
  rwa [Counterparts.join_none] at advance

end State.Mirrors

theorem rel_isSome {α β : Type} {related : α → β → Prop} {first : Option α} {second : Option β}
    (known : Option.Rel related first second) : first.isSome = second.isSome := by
  cases known <;> rfl

theorem exists_rel_of_mem {α β : Type} {related : α → β → Prop} {items : List α} {others : List β}
    (same : List.Forall₂ related items others) {item : α} (member : item ∈ items) :
    ∃ other, related item other := by
  induction same with
  | nil => cases member
  | cons first _ ih =>
      cases member with
      | head => exact ⟨_, first⟩
      | tail _ later => exact ih later

theorem exists_rel_of_some {α β : Type} {related : α → β → Prop} {first : α} {second : Option β}
    (known : Option.Rel related (some first) second) : ∃ other, related first other := by
  cases known with
  | some same => exact ⟨_, same⟩

theorem find?_rel {α β : Type} {related : α → β → Prop} {items : List α} {others : List β}
    (same : List.Forall₂ related items others) {here : α → Bool} {there : β → Bool}
    (alike : ∀ {one two}, related one two → here one = there two) :
    Option.Rel related (items.find? here) (others.find? there) ∧
      items.findIdx? here = others.findIdx? there := by
  induction same with
  | nil => exact ⟨.none, rfl⟩
  | @cons item other _ _ first _ ih =>
      rw [List.find?_cons, List.find?_cons, List.findIdx?_cons, List.findIdx?_cons, alike first]
      cases there other with
      | true => exact ⟨.some first, rfl⟩
      | false => exact ⟨ih.1, congrArg (Option.map (· + 1)) ih.2⟩

namespace State.Mirrors

variable {pairs : Counterparts} {left right : State} (mirrors : left.Mirrors pairs right)
include mirrors

theorem parents {scope other : ScopeId} (paired : pairs (.scope scope) (.scope other)) :
    ((left.scope scope).parent = none ∧ (right.scope other).parent = none) ∨
      ∃ parent around, (left.scope scope).parent = some parent ∧ (right.scope other).parent = some around ∧
        pairs (.scope parent) (.scope around) ∧ parent.index < scope.index ∧ around.index < other.index := by
  obtain ⟨same, older, old⟩ :
      (left.scope scope).Mirrors pairs (right.scope other) ∧ left.ParentOlder scope ∧
        right.ParentOlder other := mirrors.agree paired
  have linked := same.parent
  rw [State.ParentOlder] at older old
  generalize (left.scope scope).parent = parent at linked older ⊢
  generalize (right.scope other).parent = around at linked old ⊢
  cases linked with
  | none => exact .inl ⟨rfl, rfl⟩
  | some known => exact .inr ⟨_, _, rfl, rfl, known, older _ rfl, old _ rfl⟩

theorem chainUpTo {links more : Nat} {scope other : ScopeId} (paired : pairs (.scope scope) (.scope other))
    (enough : scope.index ≤ links) (plenty : other.index ≤ more) :
    List.Forall₂ (fun one two => pairs (.scope one) (.scope two)) (left.chainUpTo links scope)
      (right.chainUpTo more other) := by
  induction links generalizing scope other more with
  | zero =>
      rcases mirrors.parents paired with ⟨inside, around⟩ | ⟨_, _, _, _, _, older, _⟩
      · rw [State.chainUpTo_outermost inside, State.chainUpTo_outermost around]
        exact .cons paired .nil
      · omega
  | succ links ih =>
      rcases mirrors.parents paired with ⟨inside, around⟩ | ⟨_, _, inside, around, linked, older, old⟩
      · rw [State.chainUpTo_outermost inside, State.chainUpTo_outermost around]
        exact .cons paired .nil
      · cases more with
        | zero => omega
        | succ more =>
            rw [State.chainUpTo, State.chainUpTo, inside, around]
            exact .cons paired (ih linked (by omega) (by omega))

theorem chain {scope other : ScopeId} (paired : pairs (.scope scope) (.scope other)) :
    List.Forall₂ (fun one two => pairs (.scope one) (.scope two)) (left.chain scope) (right.chain other) :=
  mirrors.chainUpTo paired (Nat.le_refl _) (Nat.le_refl _)

theorem binds_eq (name : String) {scope other : ScopeId} (paired : pairs (.scope scope) (.scope other)) :
    left.binds name scope = right.binds name other :=
  rel_isSome ((mirrors.scope paired).bindings.get? name)

theorem owner? {scope other : ScopeId} (paired : pairs (.scope scope) (.scope other)) (name : String) :
    Option.Rel (fun one two => pairs (.scope one) (.scope two)) (left.owner? scope name)
      (right.owner? other name) :=
  (find?_rel (mirrors.chain paired) (mirrors.binds_eq name)).1

theorem hops?_eq {scope other : ScopeId} (paired : pairs (.scope scope) (.scope other)) (name : String) :
    left.hops? scope name = right.hops? other name :=
  (find?_rel (mirrors.chain paired) (mirrors.binds_eq name)).2

theorem lookup? {scope other : ScopeId} (paired : pairs (.scope scope) (.scope other)) (name : String) :
    Option.Rel (Binding.Mirrors pairs) (left.lookup? scope name) (right.lookup? other name) := by
  have owners := mirrors.owner? paired name
  rw [State.lookup?, State.lookup?]
  generalize left.owner? scope name = owner at owners ⊢
  generalize right.owner? other name = keeper at owners ⊢
  cases owners with
  | none => exact .none
  | some owned => exact (mirrors.scope owned).bindings.get? name

end State.Mirrors

end LazyStack
