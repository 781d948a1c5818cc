import LazyStack.Proofs.Run
import LazyStack.Node

/-!
The shape of nodes and of the code that they lower to. A node is single-valued when its code is meant to
leave one value, and `resultCount` is the number that it is meant to leave; both are read off the node.
-/

namespace LazyStack

def quotedCode (domain : DomainId) (code : List Step) (identity : Nat) : Value :=
  ⟨domain, .code, .code code, identity⟩

namespace Node

mutual

def Everywhere (law : Node → Prop) : Node → Prop
  | .value constant => law (.value constant)
  | .get name => law (.get name)
  | .call name args returns => law (.call name args returns) ∧ AllEverywhere law args
  | .group children => law (.group children) ∧ AllEverywhere law children
  | .raw domain body => law (.raw domain body) ∧ Everywhere law body
  | .lambda form parameters body parameterList =>
      law (.lambda form parameters body parameterList) ∧ Everywhere law body
  | .delay name body quoted => law (.delay name body quoted) ∧ Everywhere law body

def AllEverywhere (law : Node → Prop) : List Node → Prop
  | [] => True
  | node :: rest => Everywhere law node ∧ AllEverywhere law rest

end

mutual

theorem Everywhere.imp {law weaker : Node → Prop} (imp : ∀ node, law node → weaker node) :
    ∀ node : Node, node.Everywhere law → node.Everywhere weaker
  | .value _, holds => imp _ holds
  | .get _, holds => imp _ holds
  | .call _ args _, holds => ⟨imp _ holds.1, AllEverywhere.imp imp args holds.2⟩
  | .group children, holds => ⟨imp _ holds.1, AllEverywhere.imp imp children holds.2⟩
  | .raw _ body, holds => ⟨imp _ holds.1, Everywhere.imp imp body holds.2⟩
  | .lambda _ _ body _, holds => ⟨imp _ holds.1, Everywhere.imp imp body holds.2⟩
  | .delay _ body _, holds => ⟨imp _ holds.1, Everywhere.imp imp body holds.2⟩

theorem AllEverywhere.imp {law weaker : Node → Prop} (imp : ∀ node, law node → weaker node) :
    ∀ nodes : List Node, AllEverywhere law nodes → AllEverywhere weaker nodes
  | [], _ => trivial
  | node :: rest, holds => ⟨Everywhere.imp imp node holds.1, AllEverywhere.imp imp rest holds.2⟩

end

mutual

/-- A node that leaves one value, if its calls return what they ask for. -/
def SingleValued : Node → Prop
  | .call _ _ returns => returns = 1
  | .group children => SoleSingleValued children
  | _ => True

def SoleSingleValued : List Node → Prop
  | [] => False
  | child :: rest => child.SingleValued ∧ rest = []

end

mutual

def resultCount : Node → Int
  | .call _ _ returns => returns
  | .group children => resultCounts children
  | _ => 1

def resultCounts : List Node → Int
  | [] => 0
  | node :: rest => node.resultCount + resultCounts rest

end

def CallsSingles : Node → Prop
  | .call _ args _ => ∀ arg ∈ args, arg.SingleValued
  | _ => True

def IsCodeOf (body : Node) (quoted : Value) : Prop :=
  ∃ domain steps identity before after, body.lower before = .ok steps after ∧
    quoted = quotedCode domain steps identity

def HoldsBody : Node → Prop
  | .delay _ body quoted => body.IsCodeOf quoted
  | _ => True

/-- Every argument of every call in a node is single-valued, and every delay in it holds its body. -/
def WellFormed (node : Node) : Prop :=
  node.Everywhere fun part => part.CallsSingles ∧ part.HoldsBody

mutual

theorem resultCount_of_singleValued : ∀ node : Node, node.SingleValued → node.resultCount = 1
  | .value _, _ => rfl
  | .get _, _ => rfl
  | .call _ _ _, single => single
  | .group children, single => resultCounts_of_singleValued children single
  | .raw _ _, _ => rfl
  | .lambda _ _ _ _, _ => rfl
  | .delay _ _ _, _ => rfl

theorem resultCounts_of_singleValued : ∀ children, SoleSingleValued children → resultCounts children = 1
  | [], impossible => impossible.elim
  | child :: rest, single => by
      rw [resultCounts, resultCount_of_singleValued child single.1, single.2]
      rfl

end

theorem resultCounts_of_singles {args : List Node} (singles : ∀ arg ∈ args, arg.SingleValued) :
    resultCounts args = args.length := by
  induction args with
  | nil => rfl
  | cons arg rest ih =>
      rw [resultCounts, resultCount_of_singleValued arg (singles arg (by simp)),
        ih fun other member => singles other (by simp [member]), List.length_cons]
      omega

/-! What a node lowers to, read off a successful lowering. -/

variable {before after : State} {code : List Step}

theorem lower_call {name : String} {args : List Node} {returns : Int}
    (lowered : (Node.call name args returns).lower before = .ok code after) :
    ∃ steps, lowerAll args before = .ok steps after ∧
      code = steps ++ [.call name (some args.length) (some returns)] := by
  rw [lower] at lowered
  obtain ⟨steps, middle, ran, rest⟩ := Run.bind_eq_ok.mp lowered
  cases rest
  exact ⟨steps, ran, rfl⟩

theorem lower_group {children : List Node}
    (lowered : (Node.group children).lower before = .ok code after) :
    lowerAll children before = .ok code after := by
  rw [lower] at lowered
  exact lowered

theorem lowerAll_cons {node : Node} {rest : List Node}
    (lowered : lowerAll (node :: rest) before = .ok code after) :
    ∃ steps middle others, node.lower before = .ok steps middle ∧
      lowerAll rest middle = .ok others after ∧ code = steps ++ others := by
  rw [lowerAll] at lowered
  obtain ⟨steps, middle, ran, rest⟩ := Run.bind_eq_ok.mp lowered
  obtain ⟨others, final, remaining, last⟩ := Run.bind_eq_ok.mp rest
  cases last
  exact ⟨steps, middle, others, ran, remaining, rfl⟩

theorem pushQuoted_eq_ok {domain : DomainId} {steps : List Step}
    (quoted : pushQuoted domain steps before = .ok code after) :
    code = [.push (quotedCode domain steps before.nextIdentity)] := by
  rw [pushQuoted] at quoted
  obtain ⟨value, middle, created, rest⟩ := Run.bind_eq_ok.mp quoted
  cases rest
  rw [(domain.create_eq_ok created).1, quotedCode]

theorem lower_raw {domain : DomainId} {body : Node}
    (lowered : (Node.raw domain body).lower before = .ok code after) :
    ∃ steps middle identity, body.lower before = .ok steps middle ∧
      code = [.push (quotedCode domain steps identity)] := by
  rw [lower] at lowered
  obtain ⟨steps, middle, ran, rest⟩ := Run.bind_eq_ok.mp lowered
  exact ⟨steps, middle, _, ran, pushQuoted_eq_ok rest⟩

theorem lower_lambda {form : LambdaForm} {parameters body : Node} {parameterList : Value}
    (lowered : (Node.lambda form parameters body parameterList).lower before = .ok code after) :
    ∃ steps middle quoted, body.lower before = .ok steps middle ∧
      (if body.isRaw then steps = [.push quoted]
        else ∃ identity, quoted = quotedCode form.domain steps identity) ∧
      code = [.push parameterList, .push quoted, .call form.closureName (some 2) (some 1)] := by
  rw [lower] at lowered
  obtain ⟨steps, middle, ran, rest⟩ := Run.bind_eq_ok.mp lowered
  obtain ⟨pushed, final, quoting, last⟩ := Run.bind_eq_ok.mp rest
  cases last
  by_cases raw : body.isRaw
  · rw [pushBody, if_pos raw] at quoting
    cases quoting
    cases body with
    | raw domain inner =>
        obtain ⟨quotedSteps, reached, identity, _, same⟩ := lower_raw ran
        subst same
        exact ⟨_, _, _, ran, rfl, rfl⟩
    | _ => cases raw
  · rw [pushBody, if_neg raw] at quoting
    have same := pushQuoted_eq_ok quoting
    subst same
    refine ⟨steps, middle, quotedCode form.domain steps middle.nextIdentity, ran, ?_, rfl⟩
    rw [if_neg raw]
    exact ⟨_, rfl⟩

end Node

theorem executeSteps_single (invoke : Invoke) (frame : Frame) (step : Step) (state : State) :
    executeSteps invoke frame [step] state = step.execute invoke frame state := by
  rw [executeSteps, Run.bind_apply]
  cases step.execute invoke frame state with
  | ok result middle => rfl
  | error failure middle => rfl

theorem executeSteps_append (invoke : Invoke) (frame : Frame) (first second : List Step)
    (state : State) :
    executeSteps invoke frame (first ++ second) state =
      (executeSteps invoke frame first >>= fun _ => executeSteps invoke frame second) state := by
  induction first generalizing state with
  | nil => rfl
  | cons step rest ih =>
      rw [List.cons_append, executeSteps, executeSteps, Run.bind_apply, Run.bind_apply, Run.bind_apply]
      cases step.execute invoke frame state with
      | ok result middle =>
          dsimp only
          rw [ih, Run.bind_apply]
      | error failure middle => rfl

end LazyStack
