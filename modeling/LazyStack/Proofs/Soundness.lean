import LazyStack.Proofs.Classes
import LazyStack.Proofs.Frame
import LazyStack.Proofs.Shape

/-!
Sound states. A region is a part of the heap. It is closed under reference when all code in what it
holds, in closures and in promises comes from well-formed nodes, every callable in it has a signature,
and nothing in it leads out of it. What is yet to be made counts as in the region.
-/

namespace LazyStack

structure Region where
  scopes : ScopeId → Prop
  promises : PromiseId → Prop
  hosts : HostId → HostHeader → Prop
  installed : Array HostBody

/-- Code that a well-formed node lowers to. -/
def Compiled (code : List Step) : Prop :=
  ∃ node before after, Node.WellFormed node ∧ node.lower before = .ok code after

section Sound

variable (region : Region)

mutual

def Value.Sound : Value → Prop
  | ⟨_, tag, payload, _⟩ => payload.isInstance tag ∧ payload.Sound

def Payload.Sound : Payload → Prop
  | .cell head tail => head.Sound ∧ tail.Sound
  | .code steps => Compiled steps ∧ StepsSound steps
  | .callable target => target.Sound
  | _ => True

def Callable.Sound : Callable → Prop
  | .closure scope body _ => region.scopes scope ∧ Compiled body ∧ StepsSound body
  | .promise id => region.promises id
  | .host id header => region.hosts id header ∧ header.signature.isSome
  | _ => True

def StepsSound : List Step → Prop
  | [] => True
  | step :: rest => step.Sound ∧ StepsSound rest

def Step.Sound : Step → Prop
  | .push value => value.Sound
  | _ => True

end

def CodeSound (code : List Step) : Prop :=
  Compiled code ∧ StepsSound region code

def Binding.Sound : Binding → Prop
  | .value bound => bound.Sound region
  | .callable target => target.Sound region

structure Promise.Sound (promise : Promise) : Prop where
  scope {scope : ScopeId} : promise.scope = some scope → region.scopes scope
  body : CodeSound region (promise.body.getD [])
  value {value : Value} : promise.value = some value → value.Sound region

/-- What a state holds in a region is sound, and leads to nothing outside it. -/
structure State.Sound (state : State) : Prop where
  bindings {scope : ScopeId} {name : String} {binding : Binding} : region.scopes scope →
    (state.scope scope).bindings.get? name = some binding → binding.Sound region
  parents {scope parent : ScopeId} : region.scopes scope → (state.scope scope).parent = some parent →
    region.scopes parent
  promises {id : PromiseId} : region.promises id → (state.promise id).Sound region
  laterScopes {scope : ScopeId} : state.scopes.size ≤ scope.index → region.scopes scope
  laterPromises {id : PromiseId} : state.promises.size ≤ id.index → region.promises id
  installed : state.hosts = region.installed

structure Frame.Sound (state : State) (frame : Frame) : Prop where
  scope : region.scopes frame.scope
  made : state.HasStack frame.stack
  operands {value : Value} : value ∈ state.operands frame.stack → value.Sound region

end Sound

variable {region : Region}

theorem compiled_nil : Compiled [] :=
  ⟨.group [], .empty 0, .empty 0, ⟨⟨trivial, trivial⟩, trivial⟩, rfl⟩

theorem stepsSound_append {first second : List Step} :
    StepsSound region (first ++ second) ↔ StepsSound region first ∧ StepsSound region second := by
  induction first with
  | nil => simp [StepsSound]
  | cons step rest ih => simp [StepsSound, ih, and_assoc]

theorem Callable.Sound.fixed {target : Callable} (sound : target.Sound region) :
    ∃ signature, target.signature? = some signature := by
  cases target with
  | host id header => exact Option.isSome_iff_exists.mp sound.2
  | _ => exact ⟨_, rfl⟩

namespace Value

theorem Sound.target {value : Value} (sound : value.Sound region) (tagged : value.tag = .callable) :
    ∃ target, value.payload = .callable target ∧ target.Sound region := by
  obtain ⟨domain, tag, payload, identity⟩ := value
  obtain ⟨instances, holds⟩ := sound
  dsimp only at tagged
  subst tagged
  have kind := Payload.mem_classes_of_isInstance instances rfl
  cases payload with
  | callable target => exact ⟨target, rfl, holds⟩
  | _ => simp [Payload.classes] at kind

theorem Sound.code {value : Value} (sound : value.Sound region) :
    CodeSound region value.payload.steps := by
  obtain ⟨domain, tag, payload, identity⟩ := value
  cases payload with
  | code steps => exact sound.2
  | _ => exact ⟨compiled_nil, trivial⟩

end Value

theorem Node.IsCodeOf.sound {body : Node} {quoted : Value} (wellFormed : body.WellFormed)
    (holds : body.IsCodeOf quoted)
    (constants : ∀ {steps before after}, body.lower before = .ok steps after → StepsSound region steps) :
    quoted.Sound region := by
  obtain ⟨domain, steps, identity, before, after, lowered, same⟩ := holds
  subst same
  exact ⟨Payload.isInstance_of_mem (by simp [Payload.classes]), ⟨body, before, after, wellFormed, lowered⟩,
    constants lowered⟩

def Node.HoldsSound (region : Region) : Node → Prop
  | .value constant => constant.Sound region
  | .lambda _ _ _ parameterList => parameterList.Sound region
  | _ => True

mutual

theorem stepsSound_of_lower : ∀ (node : Node) {before after : State} {code : List Step},
    node.WellFormed → node.Everywhere (Node.HoldsSound region) →
      node.lower before = .ok code after → StepsSound region code
  | .value constant, _, _, _, _, sound, lowered => by
      cases lowered
      exact ⟨sound, trivial⟩
  | .get name, _, _, _, _, _, lowered => by
      cases lowered
      exact ⟨trivial, trivial⟩
  | .call name args returns, _, _, _, wellFormed, sound, lowered => by
      obtain ⟨steps, ran, same⟩ := Node.lower_call lowered
      subst same
      exact stepsSound_append.mpr
        ⟨stepsSound_of_lowerAll args wellFormed.2 sound.2 ran, trivial, trivial⟩
  | .group children, _, _, _, wellFormed, sound, lowered =>
      stepsSound_of_lowerAll children wellFormed.2 sound.2 (Node.lower_group lowered)
  | .raw domain body, _, _, _, wellFormed, sound, lowered => by
      obtain ⟨steps, middle, identity, ran, same⟩ := Node.lower_raw lowered
      subst same
      have holds : body.IsCodeOf (quotedCode domain steps identity) := ⟨_, _, _, _, _, ran, rfl⟩
      exact ⟨holds.sound wellFormed.2 (stepsSound_of_lower body wellFormed.2 sound.2), trivial⟩
  | .lambda form parameters body parameterList, _, _, _, wellFormed, sound, lowered => by
      obtain ⟨steps, middle, quoted, ran, quoting, same⟩ := Node.lower_lambda lowered
      subst same
      refine ⟨sound.1, ?_, trivial, trivial⟩
      split at quoting
      · subst quoting
        exact (stepsSound_of_lower body wellFormed.2 sound.2 ran).1
      · obtain ⟨identity, quotes⟩ := quoting
        have holds : body.IsCodeOf quoted := ⟨_, _, _, _, _, ran, quotes⟩
        exact holds.sound wellFormed.2 (stepsSound_of_lower body wellFormed.2 sound.2)
  | .delay name body quoted, _, _, _, wellFormed, sound, lowered => by
      cases lowered
      have holds : body.IsCodeOf quoted := wellFormed.1.2
      exact ⟨holds.sound wellFormed.2 (stepsSound_of_lower body wellFormed.2 sound.2), trivial, trivial⟩

theorem stepsSound_of_lowerAll : ∀ (nodes : List Node) {before after : State} {code : List Step},
    Node.AllEverywhere (fun part => part.CallsSingles ∧ part.HoldsBody) nodes →
      Node.AllEverywhere (Node.HoldsSound region) nodes →
      Node.lowerAll nodes before = .ok code after → StepsSound region code
  | [], _, _, _, _, _, lowered => by
      cases lowered
      trivial
  | node :: rest, _, _, _, wellFormed, sound, lowered => by
      obtain ⟨steps, middle, others, first, remaining, same⟩ := Node.lowerAll_cons lowered
      subst same
      exact stepsSound_append.mpr ⟨stepsSound_of_lower node wellFormed.1 sound.1 first,
        stepsSound_of_lowerAll rest wellFormed.2 sound.2 remaining⟩

end

namespace State.Sound

variable {state : State} (sound : state.Sound region)
include sound

theorem setOperands (stack : StackId) (values : Operands) :
    (state.setOperands stack values).Sound region :=
  { sound with }

theorem record (event : Event) : (state.record event).Sound region :=
  { sound with }

theorem bumped (identity : Nat) : { state with nextIdentity := identity }.Sound region :=
  { sound with }

theorem bind (scope : ScopeId) (name : String) {binding : Binding} (entered : binding.Sound region) :
    (state.bind scope name binding).Sound region where
  bindings {other wanted found} inside present := by
    rcases bindings_bind present with rfl | before
    · exact entered
    · exact sound.bindings inside before
  parents {other parent} inside present := by
    rw [parent_bind] at present
    exact sound.parents inside present
  promises := sound.promises
  laterScopes bound := sound.laterScopes (by simpa [State.bind, setScope] using bound)
  laterPromises := sound.laterPromises
  installed := sound.installed

theorem bindAll (scope : ScopeId) (names : List String) {values : List Value}
    (entered : ∀ value ∈ values, value.Sound region) :
    (state.bindAll scope names values).Sound region := by
  induction names generalizing values state with
  | nil => exact sound
  | cons name names ih =>
      cases values with
      | nil => exact sound
      | cons value values =>
          have first : Binding.Sound region (.value value) := entered value (by simp)
          exact ih (sound.bind scope name first) fun other member => entered other (by simp [member])

theorem withFrame {parent : Option ScopeId} (above : ∀ scope, parent = some scope → region.scopes scope) :
    (state.withFrame parent).Sound region where
  bindings {scope name binding} inside present := by
    rw [scope_withFrame] at present
    split at present
    · cases present
    · exact sound.bindings inside present
  parents {scope found} inside present := by
    rw [scope_withFrame] at present
    split at present
    · exact above found present
    · exact sound.parents inside present
  promises := sound.promises
  laterScopes bound := sound.laterScopes (by simp [State.withFrame] at bound; omega)
  laterPromises := sound.laterPromises
  installed := sound.installed

theorem newPromise {scope : ScopeId} {body : List Step} (inside : region.scopes scope)
    (code : CodeSound region body) :
    { state with promises := state.promises.push (.pending scope body) }.Sound region :=
  { sound with
    promises := by
      intro id live
      rw [promise_push]
      split
      · exact ⟨fun same => by cases same; exact inside, code, fun impossible => by cases impossible⟩
      · exact sound.promises live
    laterPromises := by
      intro id bound
      exact sound.laterPromises (by simp at bound; omega) }

theorem resolve (id : PromiseId) {value : Value} (result : value.Sound region) :
    (state.resolve id value).Sound region :=
  { sound with
    promises := by
      intro other live
      rw [promise_resolve]
      split
      · exact ⟨fun impossible => (by cases impossible), ⟨compiled_nil, trivial⟩,
          fun same => by cases same; exact result⟩
      · exact sound.promises live
    laterPromises := by
      intro other bound
      exact sound.laterPromises (by simpa [State.resolve] using bound) }

theorem chainUpTo (links : Nat) {scope owner : ScopeId} (inside : region.scopes scope)
    (member : owner ∈ state.chainUpTo links scope) : region.scopes owner := by
  induction links generalizing scope with
  | zero =>
      rw [State.chainUpTo, List.mem_singleton] at member
      exact member ▸ inside
  | succ links ih =>
      rw [State.chainUpTo] at member
      split at member
      next parent found =>
        rcases List.mem_cons.mp member with same | further
        · exact same ▸ inside
        · exact ih (sound.parents inside found) further
      next =>
        rw [List.mem_singleton] at member
        exact member ▸ inside

theorem lookup {scope : ScopeId} {name : String} {binding : Binding} (inside : region.scopes scope)
    (found : state.lookup? scope name = some binding) : binding.Sound region := by
  rw [State.lookup?, Option.bind_eq_some_iff] at found
  obtain ⟨owner, owned, bound⟩ := found
  rw [State.owner?] at owned
  exact sound.bindings (sound.chainUpTo _ inside (List.mem_of_find?_eq_some owned)) bound

end State.Sound

end LazyStack
