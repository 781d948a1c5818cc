import LazyStack.Environment
import LazyStack.Proofs.Classes
import Mathlib.Data.List.Forall2
import Mathlib.Data.List.Nodup

/-!
The grammar of parameters. A lambda takes as its parameters the null of its form, for none, or one name, or a group
of names no two of which are alike; a name is a bare name, or a constant that is a symbol or a text. All else is
refused for the first node that does not go on. What is taken is spelled as a list of symbols, in order.
-/

namespace LazyStack

/-- A node that names a parameter. -/
inductive Node.Names : Node → String → Prop
  | bare {name} : Node.Names (.get name) name
  | symbol {domain name identity} : Node.Names (.value ⟨domain, .symbol, .symbol name, identity⟩) name
  | text {domain name identity} : Node.Names (.value ⟨domain, .text, .text name, identity⟩) name

def Node.members : Node → List Node
  | .group children => children
  | node => [node]

/-- Parameters that a form takes, with the names that they give. -/
inductive LambdaForm.Takes (form : LambdaForm) : Node → List String → Prop
  | none {constant} : constant.same form.null → LambdaForm.Takes form (.value constant) []
  | group {children names} :
      List.Forall₂ Node.Names children names → names.Nodup → LambdaForm.Takes form (.group children) names
  | single {node name} :
      (∀ constant, node = .value constant → constant.same form.null = false) → node.Names name →
      LambdaForm.Takes form node [name]

/-- A list of names as symbols of a domain, each in a cell of that domain, which ends in a null. -/
inductive DomainId.Spells (domain : DomainId) (null : Value) : List String → Value → Prop
  | nil : DomainId.Spells domain null [] null
  | cons {name names tail number identity} :
      DomainId.Spells domain null names tail →
      DomainId.Spells domain null (name :: names)
        ⟨domain, .cell, .cell ⟨domain, .symbol, .symbol name, number⟩ tail, identity⟩

theorem Node.parameterName?_eq_some {node : Node} {name : String} :
    node.parameterName? = some name ↔ node.Names name := by
  constructor
  · intro named
    unfold parameterName? at named
    split at named
    next => cases named; exact .bare
    next => cases named; exact .symbol
    next => cases named; exact .text
    next => cases named
  · intro names
    cases names <;> rfl

theorem Node.parameterName?_eq_none {node : Node} :
    node.parameterName? = none ↔ ∀ name, ¬ node.Names name := by
  simp only [Option.eq_none_iff_forall_ne_some, ne_eq, parameterName?_eq_some]

theorem Node.forall₂_names_iff {nodes : List Node} {names : List String} :
    List.Forall₂ Node.Names nodes names ↔ nodes.map parameterName? = names.map some := by
  rw [← List.forall₂_eq_eq_eq, List.forall₂_map_left_iff, List.forall₂_map_right_iff]
  simp only [parameterName?_eq_some]

theorem Callable.not_mem_classes {tag : Tag} (other : tag ∉ [.closure, .promise, .fixed, .callable, .object])
    (target : Callable) : tag ∉ target.classes := by
  intro kind
  apply other
  have general : tag ∈ (if target.signature?.isSome then [.fixed, .callable, .object] else [.callable, .object]) →
      tag ∈ [.closure, .promise, .fixed, .callable, .object] := by
    split <;> simp +contextual
  cases target with
  | closure scope body parameters => exact (List.mem_cons.mp kind).elim (by simp +contextual) general
  | promise id => exact (List.mem_cons.mp kind).elim (by simp +contextual) general
  | _ => exact general kind

theorem Node.names_value_iff {value : Value} (sound : value.payload.isInstance value.tag) :
    (∃ name, (Node.value value).Names name) ↔ value.tag = .symbol ∨ value.tag = .text := by
  constructor
  · rintro ⟨name, names⟩
    cases names with
    | symbol => exact .inl rfl
    | text => exact .inr rfl
  · obtain ⟨domain, tag, payload, identity⟩ := value
    rintro (rfl | rfl)
    all_goals have kind := Payload.mem_classes_of_isInstance sound rfl
    · cases payload with
      | symbol name => exact ⟨name, .symbol⟩
      | callable target =>
          have apart : Tag.symbol ∉ target.classes := Callable.not_mem_classes (by decide) target
          exact absurd kind apart
      | _ => simp [Payload.classes] at kind
    · cases payload with
      | text name => exact ⟨name, .text⟩
      | callable target =>
          have apart : Tag.text ∉ target.classes := Callable.not_mem_classes (by decide) target
          exact absurd kind apart
      | _ => simp [Payload.classes] at kind

namespace LambdaForm

/-- The first of some nodes that does not go on after names seen before it, because it is no name or repeats one. -/
def FirstFault (malformed : Failure) (seen : List String) (nodes : List Node) (failure : Failure) : Prop :=
  ∃ earlier node later names, nodes = earlier ++ node :: later ∧ List.Forall₂ Node.Names earlier names ∧
    (seen ++ names).Nodup ∧
    ((∀ name, ¬ node.Names name) ∧ failure = malformed ∨
      ∃ name ∈ seen ++ names, node.Names name ∧ failure = .duplicateParameter name)

variable {malformed : Failure} {seen names : List String} {nodes : List Node}

theorem collectNames_of_names (malformed : Failure) (named : List.Forall₂ Node.Names nodes names)
    (distinct : (seen ++ names).Nodup) : collectNames malformed seen nodes = .ok (seen ++ names) := by
  induction named generalizing seen with
  | nil => rw [collectNames, List.append_nil]
  | @cons node name rest further first _ ih =>
      rw [collectNames, Node.parameterName?_eq_some.mpr first]
      have fresh : name ∉ seen := fun member =>
        (List.nodup_append.mp distinct).2.2 name member name List.mem_cons_self rfl
      rw [List.append_cons] at distinct ⊢
      exact (if_neg fresh).trans (ih distinct)

theorem collectNames_cases (malformed : Failure) (nodes : List Node) (distinct : seen.Nodup) :
    (∃ names, List.Forall₂ Node.Names nodes names ∧ (seen ++ names).Nodup ∧
        collectNames malformed seen nodes = .ok (seen ++ names)) ∨
      ∃ failure, FirstFault malformed seen nodes failure ∧
        collectNames malformed seen nodes = .error failure := by
  induction nodes generalizing seen with
  | nil => exact .inl ⟨[], .nil, by simpa using distinct, by rw [collectNames, List.append_nil]⟩
  | cons node rest ih =>
      rw [collectNames]
      cases named : node.parameterName? with
      | none =>
          refine .inr ⟨malformed, ⟨[], node, rest, [], rfl, .nil, by simpa using distinct, .inl ⟨?_, rfl⟩⟩, rfl⟩
          exact Node.parameterName?_eq_none.mp named
      | some name =>
          have names := Node.parameterName?_eq_some.mp named
          dsimp only
          by_cases repeated : name ∈ seen
          · rw [if_pos repeated]
            exact .inr ⟨_, ⟨[], node, rest, [], rfl, .nil, by simpa using distinct,
              .inr ⟨name, by simpa using repeated, names, rfl⟩⟩, rfl⟩
          · rw [if_neg repeated]
            -- The name joins those seen for the rest, where it stood before those of the rest.
            have further : (seen ++ [name]).Nodup :=
              List.nodup_append_comm.mpr (List.nodup_cons.mpr ⟨repeated, distinct⟩)
            rcases ih further with ⟨others, named, distinct, collected⟩ | ⟨failure, fault, refused⟩
            · rw [← List.append_cons] at distinct collected
              exact .inl ⟨name :: others, .cons names named, distinct, collected⟩
            · obtain ⟨earlier, last, later, others, same, named, distinct, reason⟩ := fault
              rw [← List.append_cons] at distinct reason
              exact .inr ⟨failure, ⟨node :: earlier, last, later, name :: others, congrArg (node :: ·) same,
                .cons names named, distinct, reason⟩, refused⟩

theorem names_of_collectNames (collected : collectNames malformed [] nodes = .ok names) :
    List.Forall₂ Node.Names nodes names ∧ names.Nodup := by
  rcases collectNames_cases malformed nodes .nil with ⟨others, named, distinct, also⟩ | ⟨_, _, refused⟩
  · cases collected.symm.trans also
    exact ⟨named, distinct⟩
  · cases collected.symm.trans refused

variable {form : LambdaForm} {parameters body : Node} {failure : Failure} {state : State}

theorem parameterNodes_eq_members
    (named : ∀ constant, parameters = .value constant → constant.same form.null = false) :
    form.parameterNodes parameters = parameters.members := by
  cases parameters with
  | value constant => exact if_neg (by simp [named constant rfl])
  | _ => rfl

theorem takes_iff :
    form.Takes parameters names ↔ List.Forall₂ Node.Names (form.parameterNodes parameters) names ∧ names.Nodup := by
  constructor
  · intro takes
    cases takes with
    | none same => exact ⟨by simp [parameterNodes, same], .nil⟩
    | group named distinct => exact ⟨named, distinct⟩
    | @single node name other named =>
        refine ⟨?_, List.nodup_singleton name⟩
        rw [parameterNodes_eq_members other]
        cases named <;> exact .cons (by constructor) .nil
  · rintro ⟨named, distinct⟩
    cases parameters with
    | value constant =>
        cases same : constant.same form.null with
        | true =>
            rw [parameterNodes, if_pos same] at named
            cases named
            exact .none same
        | false =>
            rw [parameterNodes, if_neg (by simp [same])] at named
            cases named with
            | cons first others =>
                cases others
                refine .single ?_ first
                rintro _ ⟨⟩
                exact same
    | group children => exact .group named distinct
    | _ =>
        cases named with
        | cons first others =>
            cases others
            exact .single (fun _ other => nomatch other) first

theorem Takes.unique {others : List String} (takes : form.Takes parameters names)
    (also : form.Takes parameters others) : names = others := by
  have mapped := Node.forall₂_names_iff.mp (takes_iff.mp takes).1
  have further := Node.forall₂_names_iff.mp (takes_iff.mp also).1
  exact (List.map_inj_right fun _ _ => Option.some.inj).mp (mapped.symm.trans further)

theorem FirstFault.of_parameterNodes (fault : FirstFault malformed seen (form.parameterNodes parameters) failure) :
    FirstFault malformed seen parameters.members failure := by
  obtain ⟨earlier, node, later, names, same, rest⟩ := fault
  refine ⟨earlier, node, later, names, ?_, rest⟩
  rw [← same, parameterNodes_eq_members]
  rintro constant rfl
  by_contra null
  rw [parameterNodes, if_pos (by simpa using null)] at same
  simp at same

end LambdaForm

section Creation

variable {domain : DomainId} {names : List String} {symbols : List Value} {state : State}

theorem DomainId.create_symbols (names : List String) (state : State)
    (named : ((state.domain domain).names.get? .symbol).isSome) :
    ∃ symbols final, (names.mapM fun name => domain.create .symbol (.symbol name)) state = .ok symbols final ∧
      final.domain domain = state.domain domain ∧
      List.Forall₂ (fun name symbol => ∃ number, symbol = ⟨domain, .symbol, .symbol name, number⟩)
        names symbols := by
  induction names generalizing state with
  | nil => exact ⟨[], state, rfl, rfl, .nil⟩
  | cons name names ih =>
      have created := create_of_fits named (show (Payload.symbol name).fits .symbol by rfl)
      obtain ⟨symbols, final, further, kept, all⟩ :=
        ih { state with nextIdentity := state.nextIdentity + 1 } named
      refine ⟨_ :: symbols, final, ?_, kept, .cons ⟨state.nextIdentity, rfl⟩ all⟩
      rw [List.mapM_cons, Run.bind_of_ok created, Run.bind_of_ok further]
      rfl

theorem DomainId.list_cons {items : List Value} {item rest tail : Value} {middle : State}
    (named : ((middle.domain domain).names.get? .cell).isSome)
    (further : domain.list items rest state = .ok tail middle) :
    ∃ number after, domain.list (item :: items) rest state = .ok ⟨domain, .cell, .cell item tail, number⟩ after ∧
      after.domain domain = middle.domain domain := by
  have created := create_of_fits named (show (Payload.cell item tail).fits .cell by rfl)
  refine ⟨middle.nextIdentity, { middle with nextIdentity := middle.nextIdentity + 1 }, ?_, rfl⟩
  rw [DomainId.list, List.foldrM_cons]
  exact (Run.bind_of_ok further).trans created

theorem DomainId.list_spells (null : Value) (named : ((state.domain domain).names.get? .cell).isSome)
    (all : List.Forall₂ (fun name symbol => ∃ number, symbol = ⟨domain, .symbol, .symbol name, number⟩)
      names symbols) :
    ∃ list final, domain.list symbols null state = .ok list final ∧ final.domain domain = state.domain domain ∧
      domain.Spells null names list := by
  induction all with
  | nil => exact ⟨null, state, rfl, rfl, .nil⟩
  | @cons name symbol names symbols made _ ih =>
      obtain ⟨number, rfl⟩ := made
      obtain ⟨tail, middle, further, kept, spells⟩ := ih
      obtain ⟨_, final, built, still⟩ := list_cons (kept ▸ named) further
      exact ⟨_, final, built, still.trans kept, .cons spells⟩

end Creation

section Build

variable {form : LambdaForm} {parameters : Node} (body : Node) {names : List String} {state : State}

theorem LambdaForm.build_of_takes (symbolsNamed : ((state.domain form.domain).names.get? .symbol).isSome)
    (cellsNamed : ((state.domain form.domain).names.get? .cell).isSome) (takes : form.Takes parameters names) :
    ∃ list after, form.build parameters body state = .ok (.lambda form parameters body list) after ∧
      form.domain.Spells form.null names list := by
  obtain ⟨named, distinct⟩ := takes_iff.mp takes
  have found : Run.ofExcept (form.parameterNames state.naming parameters) state = .ok names state := by
    rw [parameterNames, collectNames_of_names _ named (List.nil_append names ▸ distinct)]
    rfl
  obtain ⟨symbols, middle, created, kept, all⟩ := DomainId.create_symbols names state symbolsNamed
  obtain ⟨list, after, linked, -, spells⟩ :=
    DomainId.list_spells form.null (kept ▸ cellsNamed) all
  refine ⟨list, after, ?_, spells⟩
  rw [build, Run.bind_of_ok (Run.get_apply state), Run.bind_of_ok found, Run.bind_of_ok created,
    Run.bind_of_ok linked]
  rfl

theorem LambdaForm.build_of_refused {failure : Failure}
    (refused : form.parameterNames state.naming parameters = .error failure) :
    form.build parameters body state = .error failure state := by
  rw [build, Run.bind_of_ok (Run.get_apply state), refused]
  rfl

theorem LambdaForm.FirstFault.kind {text : Written String} {seen : List String} {nodes : List Node}
    {failure : Failure} (fault : FirstFault (.worded .malformedParameters text) seen nodes failure) :
    failure.kind = .form ∨ ∃ cause, text = .error cause ∧ failure = .unwritable cause := by
  obtain ⟨_, _, _, _, _, _, _, ⟨_, rfl⟩ | ⟨_, _, _, rfl⟩⟩ := fault
  · cases text with
    | ok shown => exact .inl rfl
    | error cause => exact .inr ⟨cause, rfl, rfl⟩
  · exact .inl rfl

end Build

def standardForm : LambdaForm :=
  ⟨⟨0⟩, ⟨⟨0⟩, .null, .null true, 0⟩, closureName⟩

def threeNames : Node :=
  .group [.get "a", .value ⟨⟨0⟩, .text, .text "b", 1⟩, .value ⟨⟨1⟩, .symbol, .symbol "c", 2⟩]

/-- A promise that has come to a value that holds it. -/
def selfHolding : Value :=
  ⟨⟨0⟩, .callable, .callable (.promise ⟨0⟩), 1⟩

def holdingItself : State :=
  { standardOnly with promises := #[.resolved selfHolding] }

end LazyStack
