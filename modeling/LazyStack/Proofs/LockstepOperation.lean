import LazyStack.Proofs.Lockstep
import LazyStack.Proofs.Soundness

/-!
Operations in lockstep: on stacks, scopes and domains, on values and lists of them, and on frames. Each takes
like things on the two sides and gives like results, and where it fails it fails on both sides with the same
words.
-/

namespace LazyStack

variable {settled : Prop} {pairs : Counterparts}

namespace State.Mirrors

variable {left right : State} (mirrors : left.Mirrors pairs right)
include mirrors

theorem valueText_eq {value like : Value} (same : value.Mirrors pairs like) :
    left.valueText value = right.valueText like :=
  same.text_eq mirrors.naming .standard 0

theorem valueTagged_eq {value like : Value} (same : value.Mirrors pairs like) :
    left.valueTagged value = right.valueTagged like :=
  same.tagged_eq mirrors.naming

theorem payloadQuoted_eq {payload like : Payload} (same : payload.Mirrors pairs like) :
    left.payloadQuoted payload = right.payloadQuoted like :=
  same.quoted_eq mirrors.naming

theorem scopeText_eq {scope other : ScopeId} (paired : pairs (.scope scope) (.scope other)) :
    left.scopeText scope = right.scopeText other :=
  (mirrors.scope paired).text_eq mirrors.naming

end State.Mirrors

namespace Run

theorem lockstep_record {event other : Event} (same : event.message = other.message) :
    Lockstep settled pairs Counterparts.Always (record event) (record other) :=
  fun _ _ mirrors => .ends (mirrors.record same) trivial

theorem lockstep_freshValue {domain other : DomainId} {tag : Tag} {payload like : Payload}
    (domains : pairs (.domain domain) (.domain other)) (entries : pairs (.entry domain tag) (.entry other tag))
    (kind : payload.isInstance tag) (same : payload.Mirrors pairs like) :
    Lockstep settled pairs Value.Mirrors (freshValue domain tag payload) (freshValue other tag like) := by
  intro left right mirrors
  have within := pairs.within_join
    (.one (.identity left.nextIdentity) (.identity right.nextIdentity))
  exact .ends mirrors.identify
    (.made (within domains) (within entries) (.inr ⟨rfl, rfl⟩) kind (same.mono within))

theorem lockstep_newScope {parent around : Option ScopeId}
    (linked : Option.Rel (fun one two => pairs (.scope one) (.scope two)) parent around) :
    Lockstep settled pairs (fun wider scope other => wider (.scope scope) (.scope other)) (newScope parent)
      (newScope around) :=
  fun _ _ mirrors => .ends (mirrors.openScope linked) (.inr ⟨rfl, rfl⟩)

theorem lockstep_newStack :
    Lockstep settled pairs (fun wider stack other => wider (.stack stack) (.stack other)) newStack newStack :=
  fun _ _ mirrors => .ends mirrors.openStack (.inr ⟨rfl, rfl⟩)

theorem lockstep_newPromise {scope other : ScopeId} {body like : List Step}
    (paired : pairs (.scope scope) (.scope other)) (same : Code.Mirrors pairs body like) :
    Lockstep settled pairs (fun wider id other => wider (.promise id) (.promise other)) (newPromise scope body)
      (newPromise other like) :=
  fun _ _ mirrors => .ends (mirrors.delay ⟨.some paired, .some same, .none⟩) (.inr ⟨rfl, rfl⟩)

section Memories

variable {host other : HostId} (paired : pairs (.memory host) (.memory other))
include paired

theorem lockstep_count : Lockstep settled pairs Counterparts.Same (count host) (count other) := by
  intro left right mirrors
  obtain ⟨-, counts, frames⟩ := mirrors.host (mirrors.agree paired)
  have more := congrArg (· + 1) counts
  exact .ends (mirrors.remember paired ⟨more, frames⟩) more

theorem lockstep_keep {frame caller : Frame} (same : frame.Mirrors pairs caller) :
    Lockstep settled pairs Counterparts.Always (keep host frame) (keep other caller) := by
  intro left right mirrors
  obtain ⟨-, counts, frames⟩ := mirrors.host (mirrors.agree paired)
  exact .ends (mirrors.remember paired ⟨counts, .cons same frames⟩) trivial

end Memories

theorem Lockstep.written {α : Type} {shown other : Written α} (same : shown = other) :
    Lockstep settled pairs Counterparts.Same (Run.written shown) (Run.written other) := by
  subst same
  cases shown with
  | ok text => exact .pure rfl
  | error cause => exact .throw _

theorem lockstep_resolve {id other : PromiseId} (paired : pairs (.promise id) (.promise other))
    {value like : Value} (same : value.Mirrors pairs like) :
    Lockstep settled pairs Counterparts.Always (modify fun state => state.resolve id value)
      (modify fun state => state.resolve other like) :=
  fun _ _ mirrors => .ends (mirrors.settle paired same) trivial

theorem lockstep_newTopFrame {scope other : ScopeId} (paired : pairs (.scope scope) (.scope other)) :
    Lockstep settled pairs Frame.Mirrors (newTopFrame scope) (newTopFrame other) :=
  lockstep_newStack.bind fun within fresh => .pure ⟨within paired, fresh, rfl⟩

theorem lockstep_newLocalFrame {parent around : Option ScopeId}
    (linked : Option.Rel (fun one two => pairs (.scope one) (.scope two)) parent around) (depth : Int) :
    Lockstep settled pairs Frame.Mirrors (newLocalFrame parent depth) (newLocalFrame around depth) :=
  (lockstep_newScope linked).bind fun _ scopes =>
    lockstep_newStack.bind fun within fresh => .pure ⟨within scopes, fresh, rfl⟩

end Run

namespace StackId

variable {stack other : StackId} (paired : pairs (.stack stack) (.stack other))
include paired

theorem lockstep_push {value like : Value} (same : value.Mirrors pairs like) :
    Run.Lockstep settled pairs Counterparts.Always (stack.push value) (other.push like) :=
  fun _ _ mirrors => .ends (mirrors.operate paired (.cons same (mirrors.operands paired))) trivial

theorem lockstep_pop : Run.Lockstep settled pairs Value.Mirrors stack.pop other.pop := by
  intro left right mirrors
  have same := mirrors.operands paired
  cases onLeft : left.operands stack with
  | nil =>
      rw [onLeft] at same
      rw [stack.pop_of_nil left onLeft, other.pop_of_nil right (List.forall₂_nil_left_iff.mp same)]
      exact .fails mirrors.stay
  | cons top rest =>
      rw [onLeft] at same
      obtain ⟨like, further, first, others, onRight⟩ := List.forall₂_cons_left_iff.mp same
      rw [stack.pop_of_cons left onLeft, other.pop_of_cons right onRight]
      exact .ends (mirrors.operate paired others) first

theorem lockstep_peek : Run.Lockstep settled pairs Value.Mirrors stack.peek other.peek := by
  refine Run.Lockstep.get.bind fun within mirrors => ?_
  have same := mirrors.operands (within paired)
  generalize State.operands _ stack = operands at same ⊢
  generalize State.operands _ other = others at same ⊢
  cases same with
  | nil => exact .throw _
  | cons first _ => exact .pure first

theorem lockstep_popMany (count : Int) :
    Run.Lockstep settled pairs Value.AllMirror (stack.popMany count) (other.popMany count) := by
  intro left right mirrors
  have same := mirrors.operands paired
  have lengths := same.length_eq
  have size : (left.operands stack).blockSize count = (right.operands other).blockSize count := by
    rw [Operands.blockSize, Operands.blockSize, lengths]
  rw [StackId.popMany_apply, StackId.popMany_apply, lengths]
  split
  · exact .fails mirrors.stay
  · rw [size]
    exact .ends (mirrors.operate paired (List.forall₂_drop _ same))
      (List.forall₂_reverse_iff.mpr (List.forall₂_take _ same))

theorem lockstep_size : Run.Lockstep settled pairs Counterparts.Same stack.size other.size := by
  intro left right mirrors
  exact .ends mirrors.stay (mirrors.operands paired).length_eq

theorem lockstep_clear : Run.Lockstep settled pairs Counterparts.Always stack.clear other.clear :=
  fun _ _ mirrors => .ends (mirrors.operate paired .nil) trivial

end StackId

namespace ScopeId

variable {scope other : ScopeId} (paired : pairs (.scope scope) (.scope other))
include paired

theorem lockstep_bind (name : String) {binding like : Binding} (same : binding.Mirrors pairs like) :
    Run.Lockstep settled pairs Counterparts.Always (scope.bind name binding) (other.bind name like) :=
  fun _ _ mirrors => .ends (mirrors.bind paired name same) trivial

theorem lockstep_lookup (name : String) :
    Run.Lockstep settled pairs Binding.Mirrors (scope.lookup name) (other.lookup name) := by
  refine Run.Lockstep.get.bind fun within mirrors => ?_
  have found := mirrors.lookup? (within paired) name
  generalize State.lookup? _ scope name = binding at found ⊢
  generalize State.lookup? _ other name = like at found ⊢
  cases found with
  | none => exact .throw _
  | some same => exact .pure same

theorem lockstep_rebind (name : String) {binding like : Binding} (same : binding.Mirrors pairs like) :
    Run.Lockstep settled pairs Counterparts.Always (scope.rebind name binding) (other.rebind name like) := by
  refine Run.Lockstep.get.bind fun within mirrors => ?_
  have owners := mirrors.owner? (within paired) name
  generalize State.owner? _ scope name = owner at owners ⊢
  generalize State.owner? _ other name = keeper at owners ⊢
  cases owners with
  | none => exact .throw _
  | some owned => exact ScopeId.lockstep_bind owned name (same.mono within)

theorem lockstep_bindLiteral (name : Literal) {binding like : Binding} (same : binding.Mirrors pairs like) :
    Run.Lockstep settled pairs Counterparts.Always (scope.bindLiteral name binding)
      (other.bindLiteral name like) := by
  rw [bindLiteral, bindLiteral]
  cases name.name? with
  | none => exact .throw _
  | some text => exact lockstep_bind paired text same

theorem lockstep_lookupLiteral (name : Literal) :
    Run.Lockstep settled pairs Binding.Mirrors (scope.lookupLiteral name) (other.lookupLiteral name) := by
  rw [lookupLiteral, lookupLiteral]
  cases name.name? with
  | none => exact .throw _
  | some text => exact lockstep_lookup paired text

theorem lockstep_rebindLiteral (name : Literal) {binding like : Binding}
    (same : binding.Mirrors pairs like) :
    Run.Lockstep settled pairs Counterparts.Always (scope.rebindLiteral name binding)
      (other.rebindLiteral name like) := by
  rw [rebindLiteral, rebindLiteral]
  cases name.name? with
  | none => exact .throw _
  | some text => exact lockstep_rebind paired text same

end ScopeId

namespace DomainId

variable {domain other : DomainId} (paired : pairs (.domain domain) (.domain other))
include paired

theorem lockstep_null : Run.Lockstep settled pairs Value.Mirrors domain.null other.null :=
  Run.Lockstep.get.bind fun within mirrors => .pure (mirrors.domain (within paired)).null

theorem lockstep_typeName (tag : Tag) :
    Run.Lockstep settled pairs Counterparts.Same (domain.typeName tag) (other.typeName tag) := by
  refine Run.Lockstep.get.bind fun within mirrors => ?_
  rw [Domain.typeName, Domain.typeName, (mirrors.domain (within paired)).names]
  split
  · exact .pure rfl
  · exact .throw _

theorem lockstep_create (tag : Tag) {payload like : Payload} (same : payload.Mirrors pairs like) :
    Run.Lockstep settled pairs Value.Mirrors (domain.create tag payload) (other.create tag like) := by
  intro left right mirrors
  have domains := mirrors.domain paired
  rw [create_apply, create_apply, ← domains.names, same.fits_eq, mirrors.payloadQuoted_eq same]
  cases named : (left.domain domain).names.get? tag with
  | none => exact .fails mirrors.stay
  | some name =>
      dsimp only
      split
      next fitting =>
        have entries := domains.entries (Option.isSome_of_eq_some named)
        rw [← same.fits_eq] at fitting
        exact Run.lockstep_freshValue paired entries (Payload.isInstance_of_fits fitting) same mirrors
      next => exact .fails mirrors.stay

theorem lockstep_wrap {payload like : Payload} (same : payload.Mirrors pairs like) :
    Run.Lockstep settled pairs Value.Mirrors (domain.wrap payload) (other.wrap like) := by
  by_cases shared : payload = .null true
  · subst shared
    cases same with
    | null => exact lockstep_null paired
  · have unshared : like ≠ .null true := by
      rintro rfl
      cases same with
      | null => exact shared rfl
    intro left right mirrors
    have domains := mirrors.domain paired
    have agreed : (right.domain other).tagFor? like = (left.domain domain).tagFor? payload := by
      rw [Domain.tagFor?, Domain.tagFor?, same.classes_eq, domains.names]
    cases chosen : (left.domain domain).tagFor? payload with
    | none =>
        rw [wrap_of_unclassified shared chosen, wrap_of_unclassified unshared (agreed.trans chosen),
          same.className_eq]
        exact .fails mirrors.stay
    | some tag =>
        rw [wrap_of_tagFor? shared chosen, wrap_of_tagFor? unshared (agreed.trans chosen)]
        have registered := List.find?_some (chosen : payload.classes.find? _ = some tag)
        exact Run.lockstep_freshValue paired (domains.entries registered)
          (Payload.isInstance_of_mem (List.mem_of_find?_eq_some chosen)) same mirrors

theorem lockstep_list {items others : List Value} {rest like : Value}
    (same : Value.AllMirror pairs items others) (last : rest.Mirrors pairs like) :
    Run.Lockstep settled pairs Value.Mirrors (domain.list items rest) (other.list others like) := by
  rw [list, list]
  induction same with
  | nil => exact .pure last
  | cons first _ ih =>
      rw [List.foldrM_cons, List.foldrM_cons]
      exact ih.bind fun within tail =>
        lockstep_create (within paired) .cell (.cell (first.mono within) tail)

end DomainId

namespace Value

variable {value like : Value} (same : value.Mirrors pairs like)
include same

theorem lockstep_typeName : Run.Lockstep settled pairs Counterparts.Same value.typeName like.typeName := by
  rw [typeName, typeName, same.tag_eq]
  exact DomainId.lockstep_typeName same.domain _

theorem lockstep_expect (tag : Tag) (description : String) :
    Run.Lockstep settled pairs Payload.Mirrors (value.expect tag description)
      (like.expect tag description) := by
  rw [expect, expect]
  refine .ite (by rw [same.tag_eq]) (.pure same.payload) ?_
  refine (DomainId.lockstep_typeName same.domain tag).bind fun within expected => ?_
  refine (lockstep_typeName (same.mono within)).bind fun further found => ?_
  refine Run.Lockstep.get.bind fun more mirrors => ?_
  rw [expected, found, mirrors.valueText_eq (((same.mono within).mono further).mono more)]
  exact .throw _

theorem lockstep_parameterName :
    Run.Lockstep settled pairs Counterparts.Same value.parameterName like.parameterName :=
  (lockstep_expect same .symbol _).bind fun _ payload => .pure payload.symbolName_eq

end Value

theorem Run.lockstep_mapM {α β γ δ : Type} {like : Counterparts → α → β → Prop}
    {fit : Counterparts → γ → δ → Prop} {apply : α → Run γ} {act : β → Run δ}
    (spread : ∀ {narrow wide : Counterparts} {one two}, narrow.Within wide → like narrow one two →
      like wide one two)
    (spreads : ∀ {narrow wide : Counterparts} {one two}, narrow.Within wide → fit narrow one two →
      fit wide one two)
    (each : ∀ {wider : Counterparts} {one two}, pairs.Within wider → like wider one two →
      Run.Lockstep settled wider fit (apply one) (act two))
    {items : List α} {others : List β} (same : List.Forall₂ (like pairs) items others) :
    Run.Lockstep settled pairs (fun wider => List.Forall₂ (fit wider)) (items.mapM apply)
      (others.mapM act) := by
  induction items generalizing others pairs with
  | nil =>
      cases same
      exact .pure .nil
  | cons item items ih =>
      cases same with
      | cons first rest =>
          rw [List.mapM_cons, List.mapM_cons]
          refine (each (.refl pairs) first).bind fun within one => ?_
          have others := rest.imp fun _ _ known => spread within known
          refine (ih (fun further => each (within.trans further)) others).bind fun further results => ?_
          exact .pure (.cons (spreads further one) results)

theorem DomainId.lockstep_parameterNames {domain other : DomainId}
    (paired : pairs (.domain domain) (.domain other)) {value like : Value} (same : value.Mirrors pairs like) :
    Run.Lockstep settled pairs Counterparts.Same (domain.parameterNames value)
      (other.parameterNames like) := by
  intro left right mirrors
  have nulls := (mirrors.domain paired).null
  have null : domain.null left = .ok (left.domain domain).null left := rfl
  have also : other.null right = .ok (right.domain other).null right := rfl
  have last := same.walk.2
  rw [parameterNames, parameterNames, Run.bind_of_ok null, Run.bind_of_ok also,
    same.same_eq mirrors.oneToOne nulls, same.tag_eq, last.same_eq mirrors.oneToOne nulls]
  split
  · exact .ends mirrors.stay rfl
  · split
    · have names : Run.Lockstep settled pairs (fun wider => List.Forall₂ (Counterparts.Same wider))
          (value.elements.mapM Value.parameterName) (like.elements.mapM Value.parameterName) :=
        Run.lockstep_mapM (fun within known => known.mono within) (fun _ known => known)
          (fun _ known => Value.lockstep_parameterName known) same.elements
      refine names.bind (fun within equal => ?_) mirrors
      split
      · exact .pure (by simpa using equal)
      · refine Run.Lockstep.get.bind fun further reached => ?_
        rw [reached.valueText_eq ((last.mono within).mono further)]
        exact .throw _
    · refine (Value.lockstep_typeName same).bind (fun within name => ?_) mirrors
      refine Run.Lockstep.get.bind fun further reached => ?_
      rw [name, reached.valueText_eq ((same.mono within).mono further)]
      exact .throw _

theorem Binding.lockstep_callee {binding like : Binding} (same : binding.Mirrors pairs like) (name : String) :
    Run.Lockstep settled pairs Callable.Mirrors (binding.callee name) (like.callee name) := by
  cases same with
  | callable target => exact .pure target
  | @value bound other known =>
      have refused : Run.Lockstep settled pairs (Callable.Mirrors)
          (do throw (.notCallable name (← bound.typeName)))
          (do throw (.notCallable name (← other.typeName))) :=
        (Value.lockstep_typeName known).bind fun _ same => same ▸ .throw _
      cases known with
      | @made _ _ tag _ _ _ _ _ _ _ _ payload =>
          cases tag with
          | callable => cases payload with
              | callable target => exact .pure target
              | _ => exact refused
          | _ => exact refused

end LazyStack
