import Mathlib.Data.List.Chain
import LazyStack.Proofs.Order

/-!
What runs retain. A scope with a parent is local. Where no host binds a name in a local scope, a local
scope keeps its bindings for good, and every promise keeps its scope and its body until it has a value:
within one course, and from course to course if nothing between them changes these.
-/

namespace LazyStack

def Action.target? (action : Action) (state : State) : Option ScopeId :=
  match action with
  | .bind scope _ _ => some scope
  | .rebind scope name _ => state.owner? scope name
  | _ => none

/-- An action that binds no name in a local scope. -/
def Action.SparesLocals (action : Action) (state : State) : Prop :=
  ∀ scope, action.target? state = some scope → (state.scope scope).parent = none

/-- From one state to another what there is stays there, local scopes do not change, and promises only
get values. -/
structure State.Retains (before after : State) : Prop where
  scopes : before.scopes.size ≤ after.scopes.size
  promises : before.promises.size ≤ after.promises.size
  parent {scope : ScopeId} : scope.index < before.scopes.size →
    (after.scope scope).parent = (before.scope scope).parent
  locals {scope : ScopeId} : scope.index < before.scopes.size → (before.scope scope).parent ≠ none →
    after.scope scope = before.scope scope
  promise {id : PromiseId} : id.index < before.promises.size →
    after.promise id = before.promise id ∨ (after.promise id).value.isSome

namespace State.Retains

theorem of_same {before after : State} (scopes : after.scopes = before.scopes)
    (promises : after.promises = before.promises) : before.Retains after where
  scopes := Nat.le_of_eq (congrArg Array.size scopes.symm)
  promises := Nat.le_of_eq (congrArg Array.size promises.symm)
  parent _ := by rw [State.scope, scopes, State.scope]
  locals _ _ := by rw [State.scope, scopes, State.scope]
  promise _ := .inl (by rw [State.promise, promises, State.promise])

theorem refl (state : State) : state.Retains state :=
  .of_same rfl rfl

theorem trans {first middle last : State} (earlier : first.Retains middle) (later : middle.Retains last) :
    first.Retains last where
  scopes := Nat.le_trans earlier.scopes later.scopes
  promises := Nat.le_trans earlier.promises later.promises
  parent present := by
    rw [later.parent (Nat.lt_of_lt_of_le present earlier.scopes), earlier.parent present]
  locals present inner := by
    have same := earlier.locals present inner
    rw [later.locals (Nat.lt_of_lt_of_le present earlier.scopes) (same.symm ▸ inner), same]
  promise {id} present := by
    rcases later.promise (Nat.lt_of_lt_of_le present earlier.promises) with same | valued
    · rw [same]
      exact earlier.promise present
    · exact .inr valued

theorem bind (state : State) {scope : ScopeId} (outermost : (state.scope scope).parent = none)
    (name : String) (binding : Binding) : state.Retains (state.bind scope name binding) where
  scopes := by simp [State.bind, setScope]
  promises := Nat.le_refl _
  parent {other} _ := state.parent_bind scope other name binding
  locals {other} _ inner := by
    rw [State.bind]
    rcases scope_setScope state scope other _ with ⟨same, _⟩ | unchanged
    · subst same
      exact absurd outermost inner
    · exact unchanged
  promise _ := .inl rfl

theorem newScope (state : State) (parent : Option ScopeId) :
    state.Retains { state with scopes := state.scopes.push ⟨[], parent⟩ } where
  scopes := by simp
  promises := Nat.le_refl _
  parent present := by rw [State.scope_push_of_lt _ present]
  locals present _ := State.scope_push_of_lt _ present
  promise _ := .inl rfl

theorem newPromise (state : State) (scope : ScopeId) (body : List Step) :
    state.Retains { state with promises := state.promises.push (.pending scope body) } where
  scopes := Nat.le_refl _
  promises := by simp
  parent _ := rfl
  locals _ _ := rfl
  promise present := by
    rw [promise_push, if_neg (Nat.ne_of_lt present)]
    exact .inl rfl

theorem resolve (state : State) (id : PromiseId) (value : Value) :
    state.Retains (state.resolve id value) where
  scopes := Nat.le_refl _
  promises := by simp [State.resolve]
  parent _ := rfl
  locals _ _ := rfl
  promise _ := by
    rw [promise_resolve]
    split
    · exact .inr rfl
    · exact .inl rfl

theorem of_opens {before start : State} {opened : Scope} {inner : Frame}
    (opens : before.Opens opened inner start) : before.Retains start where
  scopes := by simp [opens.scopes]
  promises := Nat.le_of_eq (congrArg Array.size opens.promises.symm)
  parent present := by rw [opens.scope_old present]
  locals present _ := opens.scope_old present
  promise _ := .inl (opens.promise _)

end State.Retains

namespace Moment

variable {whole inner first second : Moment} {before after : State}

theorem Makes.retains (made : inner.Makes before after) (keeps : inner.Keeps Action.SparesLocals) :
    before.Retains after := by
  cases made with
  | marks => exact .of_same rfl rfl
  | promises => exact .newPromise before _ _
  | pushes => exact .of_same rfl rfl
  | exchanges => exact .of_same rfl rfl
  | enters enters => exact .of_opens enters.opens
  | leaves => exact .of_same rfl rfl
  | resolves => exact .resolve before _ _
  | acts direct ends =>
      obtain ⟨_, _, spares⟩ := keeps.minds
      cases direct.changes ends with
      | marks => exact .of_same rfl rfl
      | operates => exact .of_same rfl rfl
      | binds => exact .bind before (spares _ rfl) _ _
      | rebinds owned => exact .bind before (spares _ owned) _ _
      | opens => exact .newScope before _
      | newStack => exact .of_same rfl rfl
      | delays => exact .newPromise before _ _

theorem Leads.retains (keeps : whole.Keeps Action.SparesLocals) (leads : whole.Leads before after) :
    before.Retains after := by
  refine leads.keeps ?_ State.Retains.refl State.Retains.trans
  rintro earlier later ⟨moment, reached, made⟩
  exact made.retains (keeps.inside reached)

/-- Courses in turn, between which everything is retained that a course retains. -/
def InTurn (courses : List Moment) : Prop :=
  courses.IsChain fun earlier later => earlier.after.Retains later.state

def Arises (courses : List Moment) (moment : Moment) : Prop :=
  ∃ whole ∈ courses, whole.Reaches moment

/-- A moment comes up within another, after it in the same course, or in a later course. -/
inductive Later (courses : List Moment) : Moment → Moment → Prop
  | within {first second : Moment} :
      Arises courses first → first.Reaches second → Later courses first second
  | ended {whole first second : Moment} :
      whole ∈ courses → whole.Before first second → Later courses first second
  | next {earlier later first second : Moment} :
      [earlier, later].Sublist courses → earlier.Reaches first → later.Reaches second →
      Later courses first second

section Courses

variable {courses : List Moment}

theorem Arises.inside (arises : Arises courses first) (reached : first.Reaches second) :
    Arises courses second := by
  obtain ⟨whole, member, outer⟩ := arises
  exact ⟨whole, member, outer.trans reached⟩

theorem Later.arises (later : Later courses first second) : Arises courses second := by
  cases later with
  | within arises reached => exact arises.inside reached
  | @ended whole _ _ member before =>
      obtain ⟨_, second, _, _, reached, comesUp, _⟩ := before
      exact ⟨whole, member, reached.trans comesUp⟩
  | next both _ reached => exact ⟨_, both.subset (by simp), reached⟩

variable (spares : ∀ whole ∈ courses, whole.Keeps Action.SparesLocals)
include spares

theorem InTurn.retains (inTurn : InTurn courses) {earlier later : Moment}
    (both : [earlier, later].Sublist courses) : earlier.after.Retains later.state := by
  suffices pairs : courses.Pairwise fun earlier later => earlier.after.Retains later.state from
    List.pairwise_iff_forall_sublist.mp pairs both
  clear both
  induction courses with
  | nil => exact .nil
  | cons first rest ih =>
      have others := ih (fun whole member => spares whole (by simp [member])) inTurn.tail
      refine .cons (fun last member => ?_) others
      cases rest with
      | nil => cases member
      | cons second rest =>
          have next := (List.isChain_cons_cons.mp inTurn).1
          rcases List.mem_cons.mp member with same | further
          · exact same ▸ next
          · have through := second.leads.retains (spares second (by simp))
            exact next.trans (through.trans (List.rel_of_pairwise_cons others further))

theorem Later.retains (inTurn : InTurn courses) (later : Later courses first second) :
    first.state.Retains second.state := by
  cases later with
  | within arises reached =>
      obtain ⟨whole, member, outer⟩ := arises
      exact reached.leads_to.retains ((spares whole member).inside outer)
  | @ended whole _ _ member before =>
      have keeps := spares whole member
      obtain ⟨earlier, _, reached, comesUp, _⟩ := id before
      refine (((leads first).inside comesUp).inside reached).retains keeps |>.trans ?_
      exact before.leads.retains keeps
  | @next earlier later _ _ both reached comesUp =>
      have start := spares earlier (both.subset (by simp))
      have finish := spares later (both.subset (by simp))
      exact (reached.leads_end.retains start).trans
        ((inTurn.retains spares both).trans (comesUp.leads_to.retains finish))

end Courses

end Moment

end LazyStack
