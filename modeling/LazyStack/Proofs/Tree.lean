import LazyStack.Proofs.Shape
import LazyStack.Environment

/-!
Trees. A tree is a node together with the identities of the code that its lowering has quoted, so that
it has one code of its own. `Tree.evaluate` gives it meaning without that code: the forms that make
closures and promises make them at once, over the scope of the frame.
-/

namespace LazyStack

inductive Tree
  | value (constant : Value)
  | get (name : String)
  | call (name : String) (args : List Tree) (returns : Int)
  | group (children : List Tree)
  | raw (domain : DomainId) (body : Tree) (identity : Nat)
  | lambda (parameters : List String) (parameterList : Value) (domain : DomainId) (body : Tree)
      (identity : Nat)
  | delay (domain : DomainId) (body : Tree) (identity : Nat)

def pushClosure (domain : DomainId) (frame : Frame) (parameters : List String) (body : List Step) :
    Run Unit := do
  Run.record (.closureCreated parameters)
  frame.stack.push (← domain.create .callable (.callable (.closure frame.scope body parameters)))

def pushPromise (domain : DomainId) (frame : Frame) (body : List Step) : Run Unit := do
  let promise ← Run.newPromise frame.scope body
  frame.stack.push (← domain.create .callable (.callable (.promise promise)))

namespace Tree

mutual

def code : Tree → List Step
  | .value constant => [.push constant]
  | .get name => [.get name]
  | .call name args returns => codes args ++ [.call name (some args.length) (some returns)]
  | .group children => codes children
  | .raw domain body identity => [.push (quotedCode domain body.code identity)]
  | .lambda _ parameterList domain body identity =>
      [.push parameterList, .push (quotedCode domain body.code identity),
        .call closureName (some 2) (some 1)]
  | .delay domain body identity =>
      [.push (quotedCode domain body.code identity), .call delayName (some 1) (some 1)]

def codes : List Tree → List Step
  | [] => []
  | tree :: rest => tree.code ++ codes rest

end

mutual

def evaluate (domain : DomainId) (invoke : Invoke) (frame : Frame) : Tree → Run Unit
  | .value constant => frame.stack.push constant
  | .get name => (Step.get name).execute invoke frame
  | .call name args returns => do
      evaluateAll domain invoke frame args
      (Step.call name (some args.length) (some returns)).execute invoke frame
  | .group children => evaluateAll domain invoke frame children
  | .raw quoter body identity => frame.stack.push (quotedCode quoter body.code identity)
  | .lambda parameters _ _ body _ => pushClosure domain frame parameters body.code
  | .delay quoter body _ => pushPromise quoter frame body.code

def evaluateAll (domain : DomainId) (invoke : Invoke) (frame : Frame) : List Tree → Run Unit
  | [] => return ()
  | tree :: rest => do
      tree.evaluate domain invoke frame
      evaluateAll domain invoke frame rest

end

end Tree

inductive Value.Lists (null : Value) : List String → Value → Prop
  | nil : Lists null [] null
  | cons {name names symbol tail domain identity} :
      symbol.tag = .symbol → symbol.payload = .symbol name → identity ≠ null.identity →
      Lists null names tail → Lists null (name :: names) ⟨domain, .cell, .cell symbol tail, identity⟩

namespace Tree

mutual

def Built (null : Value) : Tree → Prop
  | .call _ args _ => AllBuilt null args
  | .group children => AllBuilt null children
  | .raw _ body _ => body.Built null
  | .lambda parameters parameterList _ body _ =>
      Value.Lists null parameters parameterList ∧ body.Built null
  | .delay _ body _ => body.Built null
  | _ => True

def AllBuilt (null : Value) : List Tree → Prop
  | [] => True
  | tree :: rest => tree.Built null ∧ AllBuilt null rest

end

end Tree

/-- The null of a domain, which was made before anything that is made now. -/
structure State.OwnsNull (domain : DomainId) (null : Value) (state : State) : Prop where
  own : (state.domain domain).null = null
  tagged : null.tag = .null
  older : null.identity < state.nextIdentity

namespace Node

/-- A node that is made of the constructors of nodes and by the compilers of an environment. -/
inductive Built (environment : Environment) (null : Value) : Node → Prop
  | value (constant : Value) : Built environment null (.value constant)
  | get (name : String) : Built environment null (.get name)
  | call {args : List Node} (name : String) (returns : Int) :
      (∀ arg ∈ args, Built environment null arg) → Built environment null (.call name args returns)
  | group {children : List Node} :
      (∀ child ∈ children, Built environment null child) → Built environment null (.group children)
  | raw {body : Node} (domain : DomainId) :
      Built environment null body → Built environment null (.raw domain body)
  | lambda {parameters body node : Node} {before after : State} :
      Built environment null body → before.OwnsNull environment.domain null →
      (environment.lambdaForm >>= fun form => form.build parameters body) before = .ok node after →
      Built environment null node
  | delay {children : List Node} {node : Node} {before after : State} :
      (∀ child ∈ children, Built environment null child) →
      buildDelay environment.domain delayName children before = .ok node after →
      Built environment null node

mutual

/-- A tree is a node with identities for the code that is quoted in it. -/
inductive HasTree : Node → Tree → Prop
  | value (constant : Value) : HasTree (.value constant) (.value constant)
  | get (name : String) : HasTree (.get name) (.get name)
  | call {args trees name returns} :
      HaveTrees args trees → HasTree (.call name args returns) (.call name trees returns)
  | group {children trees} : HaveTrees children trees → HasTree (.group children) (.group trees)
  | raw {body inner domain identity} :
      HasTree body inner → HasTree (.raw domain body) (.raw domain inner identity)
  | lambda {form parameters body parameterList names naming inner identity} :
      form.parameterNames naming parameters = .ok names → body.isRaw = false → HasTree body inner →
      HasTree (.lambda form parameters body parameterList)
        (.lambda names parameterList form.domain inner identity)
  | lambdaOfRaw {form parameters body parameterList names naming inner domain identity} :
      form.parameterNames naming parameters = .ok names → HasTree body inner →
      HasTree (.lambda form parameters (.raw domain body) parameterList)
        (.lambda names parameterList domain inner identity)
  | delay {name body inner domain identity} :
      HasTree body inner →
      HasTree (.delay name body (quotedCode domain inner.code identity)) (.delay domain inner identity)

inductive HaveTrees : List Node → List Tree → Prop
  | nil : HaveTrees [] []
  | cons {node rest tree trees} :
      HasTree node tree → HaveTrees rest trees → HaveTrees (node :: rest) (tree :: trees)

end

end Node

namespace Value.Lists

variable {null list : Value} {names : List String} {state : State}

theorem terminator_eq (lists : Lists null names list) (tagged : null.tag = .null) :
    list.terminator = null := by
  induction lists with
  | nil =>
      obtain ⟨domain, tag, payload, identity⟩ := null
      dsimp only at tagged
      subst tagged
      rfl
  | cons symbol holds apart tail ih =>
      rw [terminator]
      exact ih

theorem parameterNames_elements (lists : Lists null names list) (tagged : null.tag = .null) :
    list.elements.mapM parameterName state = .ok names state := by
  induction lists with
  | nil =>
      obtain ⟨domain, tag, payload, identity⟩ := null
      dsimp only at tagged
      subst tagged
      rfl
  | @cons name names symbol tail domain identity tag holds apart further ih =>
      have first : symbol.parameterName state = .ok name state := by
        rw [parameterName, Run.bind_of_ok (symbol.expect_of_tag _ tag), holds]
        rfl
      have elements : Value.elements ⟨domain, .cell, .cell symbol tail, identity⟩ =
          symbol :: tail.elements := by
        rw [Value.elements, walk, List.map_cons, Value.elements]
      rw [elements, List.mapM_cons, Run.bind_of_ok first, Run.bind_of_ok ih]
      rfl

theorem same_null_iff (lists : Lists null names list) : list.same null = true ↔ names = [] := by
  cases lists with
  | nil => simp [Value.same]
  | cons symbol holds apart tail => simp [Value.same, apart]

theorem tag_of_ne_nil (lists : Lists null names list) (several : names ≠ []) : list.tag = .cell := by
  cases lists with
  | nil => exact absurd rfl several
  | cons symbol holds apart tail => rfl

theorem parameterNames_apply (lists : Lists null names list) (tagged : null.tag = .null)
    {domain : DomainId} (own : (state.domain domain).null = null) :
    domain.parameterNames list state = .ok names state := by
  have found : domain.null state = .ok null state := by
    rw [← own]
    rfl
  rw [DomainId.parameterNames, Run.bind_of_ok found]
  by_cases empty : names = []
  · rw [if_pos (lists.same_null_iff.mpr empty), empty]
    rfl
  · have elements : list.elements.mapM parameterName state = .ok names state :=
      lists.parameterNames_elements tagged
    have ended : list.terminator.same null = true := by
      rw [lists.terminator_eq tagged]
      simp [Value.same]
    rw [if_neg (empty ∘ lists.same_null_iff.mp), if_pos (lists.tag_of_ne_nil empty),
      Run.bind_of_ok elements, if_pos ended]
    rfl

end Value.Lists

section Building

variable {null list : Value} {before after : State}

theorem symbols_of_mapM {domain : DomainId} {names : List String} {symbols : List Value}
    (ran : (names.mapM fun name => domain.create .symbol (.symbol name)) before = .ok symbols after) :
    symbols.map Value.payload = names.map Payload.symbol ∧ (∀ symbol ∈ symbols, symbol.tag = .symbol) ∧
      before.nextIdentity ≤ after.nextIdentity := by
  induction names generalizing before symbols with
  | nil =>
      cases ran
      simp
  | cons name names ih =>
      rw [List.mapM_cons] at ran
      obtain ⟨symbol, middle, created, rest⟩ := Run.bind_eq_ok.mp ran
      obtain ⟨others, final, remaining, last⟩ := Run.bind_eq_ok.mp rest
      cases last
      obtain ⟨made, grown⟩ := domain.create_eq_ok created
      subst made grown
      obtain ⟨payloads, tags, later⟩ := ih remaining
      refine ⟨by simp [payloads], ?_, ?_⟩
      · intro other member
        rcases List.mem_cons.mp member with same | further
        · rw [same]
        · exact tags other further
      · exact Nat.le_trans (Nat.le_succ _) later

theorem lists_of_list {domain : DomainId} {names : List String} {symbols : List Value}
    (payloads : symbols.map Value.payload = names.map Payload.symbol)
    (tags : ∀ symbol ∈ symbols, symbol.tag = .symbol)
    (ran : domain.list symbols null before = .ok list after)
    (older : null.identity < before.nextIdentity) :
    Value.Lists null names list ∧ before.nextIdentity ≤ after.nextIdentity := by
  induction symbols generalizing names list after with
  | nil =>
      cases names with
      | nil =>
          cases ran
          exact ⟨.nil, Nat.le_refl _⟩
      | cons name names => cases payloads
  | cons symbol symbols ih =>
      cases names with
      | nil => cases payloads
      | cons name names =>
          rw [DomainId.list, List.foldrM_cons] at ran
          obtain ⟨tail, middle, further, last⟩ := Run.bind_eq_ok.mp ran
          rw [List.map_cons, List.map_cons, List.cons.injEq] at payloads
          obtain ⟨rest, later⟩ := ih payloads.2 (fun other member => tags other (by simp [member])) further
          obtain ⟨made, grown⟩ := domain.create_eq_ok last
          subst made grown
          refine ⟨.cons (tags symbol (by simp)) payloads.1 ?_ rest, Nat.le_succ_of_le later⟩
          omega

theorem LambdaForm.build_parts {form : LambdaForm} {parameters body node : Node}
    (ran : form.build parameters body before = .ok node after) :
    ∃ names symbols middle list, form.parameterNames before.naming parameters = .ok names ∧
      symbols.map Value.payload = names.map Payload.symbol ∧ (∀ symbol ∈ symbols, symbol.tag = .symbol) ∧
      before.nextIdentity ≤ middle.nextIdentity ∧ form.domain.list symbols form.null middle = .ok list after ∧
      node = .lambda form parameters body list := by
  rw [build, Run.bind_of_ok (Run.get_apply before)] at ran
  obtain ⟨names, same, named, rest⟩ := Run.bind_eq_ok.mp ran
  obtain ⟨found, unchanged⟩ := Run.ofExcept_eq_ok named
  subst unchanged
  obtain ⟨symbols, middle, made, remaining⟩ := Run.bind_eq_ok.mp rest
  obtain ⟨list, final, linked, last⟩ := Run.bind_eq_ok.mp remaining
  cases last
  obtain ⟨payloads, tags, later⟩ := symbols_of_mapM made
  exact ⟨names, symbols, middle, list, found, payloads, tags, later, linked, rfl⟩

theorem LambdaForm.build_eq_ok {form : LambdaForm} {parameters body node : Node}
    (ran : form.build parameters body before = .ok node after)
    (older : form.null.identity < before.nextIdentity) :
    ∃ names naming parameterList, form.parameterNames naming parameters = .ok names ∧
      Value.Lists form.null names parameterList ∧
      node = .lambda form parameters body parameterList := by
  obtain ⟨names, symbols, middle, list, found, payloads, tags, later, linked, same⟩ := build_parts ran
  obtain ⟨lists, _⟩ := lists_of_list payloads tags linked (Nat.lt_of_lt_of_le older later)
  exact ⟨names, _, list, found, lists, same⟩

theorem Node.buildDelay_eq_ok {domain : DomainId} {name : String} {children : List Node} {node : Node}
    (ran : Node.buildDelay domain name children before = .ok node after) :
    ∃ body steps middle identity, children = [body] ∧ body.lower before = .ok steps middle ∧
      node = .delay name body (quotedCode domain steps identity) := by
  cases children with
  | nil => cases ran
  | cons body others =>
      cases others with
      | cons => cases ran
      | nil =>
          obtain ⟨quoted, final, made, last⟩ := Run.bind_eq_ok.mp ran
          cases last
          rw [Node.quote] at made
          obtain ⟨steps, middle, lowered, created⟩ := Run.bind_eq_ok.mp made
          obtain ⟨same, _⟩ := domain.create_eq_ok created
          exact ⟨body, steps, middle, middle.nextIdentity, rfl, lowered, by rw [same]; rfl⟩

end Building

namespace Node

variable {environment : Environment} {null : Value}

theorem haveTrees_of_lowerAll {nodes : List Node} {before after : State} {code : List Step}
    (each : ∀ node ∈ nodes, ∀ {before after code}, node.lower before = .ok code after →
      ∃ tree, node.HasTree tree ∧ tree.Built null ∧ tree.code = code)
    (lowered : lowerAll nodes before = .ok code after) :
    ∃ trees, HaveTrees nodes trees ∧ Tree.AllBuilt null trees ∧ Tree.codes trees = code ∧
      trees.length = nodes.length := by
  induction nodes generalizing before code with
  | nil =>
      cases lowered
      exact ⟨[], .nil, trivial, rfl, rfl⟩
  | cons node rest ih =>
      obtain ⟨steps, middle, others, first, remaining, same⟩ := lowerAll_cons lowered
      obtain ⟨tree, has, built, ours⟩ := each node (by simp) first
      obtain ⟨trees, kept, allBuilt, theirs, size⟩ :=
        ih (fun other member => each other (by simp [member])) remaining
      refine ⟨tree :: trees, .cons has kept, ⟨built, allBuilt⟩, ?_, by simp [size]⟩
      rw [Tree.codes, ours, theirs, same]

theorem Built.exists_tree {node : Node} (built : node.Built environment null) {before after : State}
    {code : List Step} (lowered : node.lower before = .ok code after) :
    ∃ tree, node.HasTree tree ∧ tree.Built null ∧ tree.code = code := by
  induction built generalizing before after code with
  | value constant =>
      cases lowered
      exact ⟨.value constant, .value constant, trivial, rfl⟩
  | get name =>
      cases lowered
      exact ⟨.get name, .get name, trivial, rfl⟩
  | call name returns _ ih =>
      obtain ⟨steps, ran, same⟩ := lower_call lowered
      obtain ⟨trees, kept, allBuilt, codes, size⟩ := haveTrees_of_lowerAll ih ran
      refine ⟨.call name trees returns, .call kept, allBuilt, ?_⟩
      rw [Tree.code, codes, size, same]
  | group _ ih =>
      obtain ⟨trees, kept, allBuilt, codes, _⟩ := haveTrees_of_lowerAll ih (lower_group lowered)
      exact ⟨.group trees, .group kept, allBuilt, codes⟩
  | raw domain _ ih =>
      obtain ⟨steps, middle, identity, ran, same⟩ := lower_raw lowered
      obtain ⟨inner, has, innerBuilt, code⟩ := ih ran
      subst code same
      exact ⟨.raw domain inner identity, .raw has, innerBuilt, rfl⟩
  | @lambda parameters body node start stop _ owns compiled ih =>
      obtain ⟨form, same, made, built⟩ := Run.bind_eq_ok.mp compiled
      cases made
      have older := owns.older
      rw [← owns.own] at older
      obtain ⟨names, naming, parameterList, named, lists, shape⟩ := LambdaForm.build_eq_ok built older
      rw [owns.own] at lists
      subst shape
      obtain ⟨steps, middle, quoted, ran, quoting, same⟩ := lower_lambda lowered
      obtain ⟨inner, has, innerBuilt, code⟩ := ih ran
      subst code same
      by_cases raw : body.isRaw
      · rw [if_pos raw] at quoting
        cases has with
        | @raw part kept quoter identity has =>
            rw [Tree.code, List.cons.injEq, Step.push.injEq] at quoting
            rw [← quoting.1]
            exact ⟨.lambda names parameterList quoter kept identity, .lambdaOfRaw named has,
              ⟨lists, innerBuilt⟩, rfl⟩
        | _ => cases raw
      · rw [if_neg raw] at quoting
        obtain ⟨identity, quotes⟩ := quoting
        subst quotes
        exact ⟨.lambda names parameterList environment.domain inner identity,
          .lambda named (by simpa using raw) has, ⟨lists, innerBuilt⟩, rfl⟩
  | delay _ compiled ih =>
      obtain ⟨body, steps, middle, identity, only, quoted, same⟩ := buildDelay_eq_ok compiled
      subst only same
      cases lowered
      obtain ⟨inner, has, innerBuilt, code⟩ := ih body (by simp) quoted
      subst code
      exact ⟨.delay environment.domain inner identity, .delay has, innerBuilt, rfl⟩

end Node

end LazyStack
