import LazyStack.Session
import LazyStack.Proofs.LockstepEnvironment

/-!
Commands in lockstep. From like registers and states that mirror each other, one command gives one and the same
reply on both sides, or fails on both with the same words, and leaves like registers and states again.
-/

namespace LazyStack

variable {settled : Prop} {pairs : Counterparts}

theorem Callable.Mirrors.parameters?_eq {target other : Callable} (same : target.Mirrors pairs other) :
    target.parameters? = other.parameters? := by
  cases same <;> rfl

namespace State.Mirrors

variable {left right : State} (mirrors : left.Mirrors pairs right)
include mirrors

theorem resolved?_eq {target other : Callable} (same : target.Mirrors pairs other) :
    left.resolved? target = right.resolved? other := by
  cases same with
  | promise paired => exact congrArg some (rel_isSome (mirrors.promise paired).value)
  | _ => rfl

theorem released?_eq {target other : Callable} (same : target.Mirrors pairs other) :
    left.released? target = right.released? other := by
  cases same with
  | @promise id like paired =>
      have promises := mirrors.promise paired
      have scopes := rel_isSome promises.scope
      have bodies := rel_isSome promises.body
      rw [State.released?, State.released?, State.isReleased, State.isReleased, ← Option.not_isSome,
        ← Option.not_isSome, ← Option.not_isSome, ← Option.not_isSome, scopes, bodies]
  | _ => rfl

theorem summarizeCallable_eq {target other : Callable} (same : target.Mirrors pairs other) :
    left.summarizeCallable target = right.summarizeCallable other := by
  rw [State.summarizeCallable, State.summarizeCallable, same.text_eq mirrors.naming, same.parameters?_eq,
    mirrors.resolved?_eq same, mirrors.released?_eq same]

theorem canonical_eq {value like : Value} (same : value.Mirrors pairs like) :
    value.isCanonicalNull left = like.isCanonicalNull right :=
  same.same_eq mirrors.oneToOne (mirrors.domain same.domain).null

theorem summarize_eq {value like : Value} (same : value.Mirrors pairs like) :
    left.summarize value = right.summarize like := by
  have text := mirrors.valueText_eq same
  have typeName := mirrors.typeName_eq same.domain value.tag
  have canonical := mirrors.canonical_eq same
  have payload := same.payload
  rw [State.summarize, State.summarize, text, typeName, canonical, same.tag_eq]
  generalize value.payload = payload at payload
  generalize like.payload = datum at payload
  cases payload with
  | callable target =>
      simp only [Option.bind_some, target.parameters?_eq, mirrors.resolved?_eq target,
        mirrors.released?_eq target]
  | _ => rfl

theorem summarizeBinding_eq {binding like : Binding} (same : binding.Mirrors pairs like) :
    left.summarizeBinding binding = right.summarizeBinding like := by
  cases same with
  | value bound => exact mirrors.summarize_eq bound
  | callable target => exact mirrors.summarizeCallable_eq target

theorem summarizeAll_eq {values others : List Value} (same : Value.AllMirror pairs values others) :
    left.summarizeAll values = right.summarizeAll others := by
  rw [State.summarizeAll, State.summarizeAll]
  induction same with
  | nil => rw [List.map_nil, List.map_nil]
  | cons first _ ih => rw [List.map_cons, List.map_cons, gathered, gathered, mirrors.summarize_eq first, ih]

theorem stackValues {stack other : StackId} (paired : pairs (.stack stack) (.stack other)) :
    Value.AllMirror pairs (left.stackValues stack) (right.stackValues other) :=
  List.forall₂_reverse_iff.mpr (mirrors.operands paired)

theorem summarizeStack_eq {stack other : StackId} (paired : pairs (.stack stack) (.stack other)) :
    left.summarizeStack stack = right.summarizeStack other :=
  mirrors.summarizeAll_eq (mirrors.stackValues paired)

theorem stackText_eq {stack other : StackId} (paired : pairs (.stack stack) (.stack other)) :
    left.stackText stack = right.stackText other := by
  have texts {values others : List Value} (same : Value.AllMirror pairs values others) :
      values.map left.valueTagged = others.map right.valueTagged := by
    induction same with
    | nil => rw [List.map_nil, List.map_nil]
    | cons first _ ih => rw [List.map_cons, List.map_cons, mirrors.valueTagged_eq first, ih]
  rw [State.stackText, State.stackText, texts (mirrors.stackValues paired)]

theorem scopeSummary_eq {scope other : ScopeId} (paired : pairs (.scope scope) (.scope other)) :
    left.scopeSummary scope = right.scopeSummary other := by
  rw [State.scopeSummary, State.scopeSummary, (mirrors.scope paired).bindings.keys,
    (mirrors.chain paired).length_eq]

end State.Mirrors

namespace Work

variable {α β γ δ : Type}

/-- Work in lockstep: from like registers it runs in lockstep, and leaves like registers. -/
def Lockstep (settled : Prop) (pairs : Counterparts) (fit : Counterparts → α → β → Prop) (work : Work α)
    (other : Work β) : Prop :=
  ∀ ⦃registers others⦄, registers.Mirrors pairs others →
    Run.Lockstep settled pairs
      (fun wider result answer => fit wider result.1 answer.1 ∧ result.2.Mirrors wider answer.2)
      (work registers) (other others)

theorem Lockstep.pure {fit : Counterparts → α → β → Prop} {result : α} {answer : β}
    (fits : fit pairs result answer) : Lockstep settled pairs fit (pure result) (pure answer) :=
  fun _ _ alike => .pure ⟨fits, alike⟩

theorem Lockstep.throw {fit : Counterparts → α → β → Prop} (failure : Failure) :
    Lockstep settled pairs fit (throw failure) (throw failure) :=
  fun _ _ _ => Run.Lockstep.throw failure

theorem Lockstep.lift {fit : Counterparts → α → β → Prop} {run : Run α} {other : Run β}
    (lockstep : Run.Lockstep settled pairs fit run other) :
    Lockstep settled pairs fit (liftM run) (liftM other) :=
  fun _ _ alike => lockstep.bind fun within fits => .pure ⟨fits, alike.mono within⟩

theorem Lockstep.bind {fit : Counterparts → α → β → Prop} {suits : Counterparts → γ → δ → Prop}
    {work : Work α} {other : Work β} {next : α → Work γ} {rest : β → Work δ}
    (first : Lockstep settled pairs fit work other)
    (later : ∀ {wider result answer}, pairs.Within wider → fit wider result answer →
      Lockstep settled wider suits (next result) (rest answer)) :
    Lockstep settled pairs suits (work >>= next) (other >>= rest) :=
  fun _ _ alike => (first alike).bind fun within known => later within known.1 known.2

theorem Lockstep.some {fit : Counterparts → α → β → Prop} {work : Work α} {other : Work β}
    (lockstep : Lockstep settled pairs fit work other) :
    Lockstep settled pairs (fun wider => Option.Rel (fit wider)) (Option.some <$> work) (Option.some <$> other) :=
  lockstep.bind fun _ fits => .pure (.some fits)

theorem Lockstep.registers : Lockstep settled pairs Registers.Mirrors (get : Work Registers) get :=
  fun _ _ alike => .pure ⟨alike, alike⟩

theorem Lockstep.state : Lockstep settled pairs State.Mirrors (getThe State : Work State) (getThe State) :=
  .lift .get

theorem Lockstep.keep {change also : Registers → Registers}
    (same : ∀ {registers others : Registers}, registers.Mirrors pairs others →
      (change registers).Mirrors pairs (also others)) :
    Lockstep settled pairs Counterparts.Always (modify change : Work Unit) (modify also) :=
  fun _ _ alike => .pure ⟨trivial, same alike⟩

theorem lockstep_keepValue (name : Option String) {value like : Value} (same : value.Mirrors pairs like) :
    Lockstep settled pairs Counterparts.Always (keepValue name value) (keepValue name like) := by
  cases name with
  | none => exact .pure trivial
  | some register => exact .keep fun alike => alike.putValue register same

theorem lockstep_keepCode (name : Option String) {steps code : List Step}
    (same : Code.Mirrors pairs steps code) :
    Lockstep settled pairs Counterparts.Always (keepCode name steps) (keepCode name code) := by
  cases name with
  | none => exact .pure trivial
  | some register => exact .keep fun alike => alike.putCode register same

theorem lockstep_scope (name : String) :
    Lockstep settled pairs (fun wider one two => wider (.scope one) (.scope two)) (scope name)
      (scope name) :=
  Lockstep.registers.bind fun _ alike => .lift (Run.lockstep_fetch alike.scopes name)

theorem lockstep_stack (name : String) :
    Lockstep settled pairs (fun wider one two => wider (.stack one) (.stack two)) (stack name)
      (stack name) :=
  Lockstep.registers.bind fun _ alike => .lift (Run.lockstep_fetch alike.operandStacks name)

theorem lockstep_frame (name : String) :
    Lockstep settled pairs Frame.Mirrors (frame name) (frame name) :=
  Lockstep.registers.bind fun _ alike => .lift (Run.lockstep_fetch alike.frames name)

theorem lockstep_domain (name : String) :
    Lockstep settled pairs (fun wider one two => wider (.domain one) (.domain two)) (domain name)
      (domain name) :=
  Lockstep.registers.bind fun _ alike => .lift (Run.lockstep_fetch alike.domains name)

theorem lockstep_codeSteps (name : String) :
    Lockstep settled pairs Code.Mirrors (codeSteps name) (codeSteps name) :=
  Lockstep.registers.bind fun _ alike => .lift (Run.lockstep_fetch alike.codes name)

theorem lockstep_mapM {like : Counterparts → α → β → Prop} {apply : γ → Work α} {act : γ → Work β}
    (spread : ∀ {narrow wide : Counterparts} {one two}, narrow.Within wide → like narrow one two →
      like wide one two)
    {items : List γ}
    (each : ∀ {wider : Counterparts} {item}, item ∈ items → pairs.Within wider →
      Lockstep settled wider like (apply item) (act item)) :
    Lockstep settled pairs (fun wider => List.Forall₂ (like wider)) (items.mapM apply) (items.mapM act) := by
  induction items generalizing pairs with
  | nil => exact .pure .nil
  | cons item items ih =>
      rw [List.mapM_cons, List.mapM_cons]
      refine (each List.mem_cons_self (.refl pairs)).bind fun first one => ?_
      refine (ih fun member further => each (List.mem_cons_of_mem _ member) (first.trans further)).bind
        fun second results => ?_
      exact .pure (.cons (spread second one) results)

end Work

namespace Run

theorem lockstep_shown {α : Type} {shown other : Written α} (reply : α → Reply) (same : shown = other) :
    Lockstep settled pairs Counterparts.Same (do return reply (← written shown))
      (do return reply (← written other)) :=
  (Lockstep.written same).bind fun _ text => .pure (congrArg reply text)

theorem lockstep_summary {value like : Value} (same : value.Mirrors pairs like) :
    Lockstep settled pairs Counterparts.Same (summary value) (summary like) :=
  Lockstep.get.bind fun within mirrors => lockstep_shown .summary (mirrors.summarize_eq (same.mono within))

theorem lockstep_summaries {values others : List Value} (same : Value.AllMirror pairs values others) :
    Lockstep settled pairs Counterparts.Same (summaries values) (summaries others) :=
  Lockstep.get.bind fun within mirrors =>
    lockstep_shown .summaries (mirrors.summarizeAll_eq (Value.AllMirror.mono within same))

theorem lockstep_bindingSummary {binding like : Binding} (same : binding.Mirrors pairs like) :
    Lockstep settled pairs Counterparts.Same (bindingSummary binding) (bindingSummary like) :=
  Lockstep.get.bind fun within mirrors =>
    lockstep_shown .summary (mirrors.summarizeBinding_eq (same.mono within))

theorem attempt_of_ok {run : Run Unit} {state after : State} (done : run state = .ok () after) :
    attempt run state = .ok none after := by
  simp only [attempt, tryCatch, tryCatchThe, MonadExceptOf.tryCatch, EStateM.tryCatch, bind_of_ok done]
  rfl

theorem attempt_of_error {run : Run Unit} {state after : State} {failure : Failure} :
    run state = .error failure after → attempt run state = match failure with
      | .unwritable cause => .error (.unwritable cause) after
      | other => .ok (some other) after := by
  intro failed
  simp only [attempt, tryCatch, tryCatchThe, MonadExceptOf.tryCatch, EStateM.tryCatch, bind_of_error failed]
  cases failure <;> rfl

theorem lockstep_attempt {run other : Run Unit}
    (same : Lockstep settled pairs Counterparts.Always run other) :
    Lockstep settled pairs Counterparts.Same (attempt run) (attempt other) := by
  intro left right mirrors
  have together := same mirrors
  generalize outcome : run left = ran at together
  generalize reached : other right = followed at together
  cases together with
  | ends advance _ =>
      rw [attempt_of_ok outcome, attempt_of_ok reached]
      exact .ends advance rfl
  | fails advance =>
      rw [attempt_of_error outcome, attempt_of_error reached]
      split
      · exact .fails advance
      · exact .ends advance rfl

theorem lockstep_onFrame {frame caller : Frame} (frames : frame.Mirrors pairs caller) {run other : Run Unit}
    (same : Lockstep settled pairs Counterparts.Always run other) :
    Lockstep settled pairs Counterparts.Same (onFrame frame run) (onFrame caller other) := by
  refine (lockstep_attempt same).bind fun first failure => ?_
  refine Lockstep.get.bind fun second mirrors => ?_
  rw [failure]
  exact lockstep_shown (.ran _) (mirrors.summarizeStack_eq (second (first frames.stack)))

theorem lockstep_codeReply {steps code : List Step} (same : Code.Mirrors pairs steps code) :
    Lockstep settled pairs Counterparts.Same (codeReply steps) (codeReply code) := by
  refine Lockstep.get.bind fun within mirrors => ?_
  have listings := (same.mono within).listings_eq mirrors.naming
  have quoted := (same.mono within).quotedAll_eq mirrors.naming
  dsimp only
  rw [same.length_eq, codeListing, codeListing, codeText, codeText, listings, quoted]
  refine (Lockstep.written rfl).bind fun _ listing => (Lockstep.written rfl).bind fun _ parts => ?_
  rw [listing, parts]
  exact lockstep_shown (.code _ _ _) rfl

theorem lockstep_frameReply {frame caller : Frame} (frames : frame.Mirrors pairs caller) :
    Lockstep settled pairs Counterparts.Same (frameReply frame) (frameReply caller) := by
  refine Lockstep.get.bind fun within mirrors => ?_
  have sizes := (mirrors.operands (within frames.stack)).length_eq
  have scopes := mirrors.scopeSummary_eq (within frames.scope)
  dsimp only
  rw [frames.depth, sizes, scopes]
  exact .pure rfl

theorem lockstep_listReply {value like : Value} (same : value.Mirrors pairs like) :
    Lockstep settled pairs Counterparts.Same (listReply value) (listReply like) := by
  refine Lockstep.get.bind fun {near left right} within mirrors => ?_
  have known := same.mono within
  have proper : value.walk.map Prod.snd = like.walk.map Prod.snd := by
    have walks := known.walk.1
    generalize value.walk = walk at walks
    generalize like.walk = other at walks
    induction walks with
    | nil => rfl
    | cons first _ ih => rw [List.map_cons, List.map_cons, first.2, ih]
  have texts : value.elements.map left.valueText = like.elements.map right.valueText := by
    have elements := known.elements
    generalize value.elements = values at elements
    generalize like.elements = others at elements
    induction elements with
    | nil => rw [List.map_nil, List.map_nil]
    | cons first _ ih => rw [List.map_cons, List.map_cons, mirrors.valueText_eq first, ih]
  rw [proper, texts, mirrors.summarizeAll_eq known.elements]
  refine (Lockstep.written rfl).bind fun _ items => (Lockstep.written rfl).bind fun _ shown => ?_
  rw [items, shown]
  exact lockstep_shown (.list _ _) (mirrors.summarize_eq known.walk.2)

theorem lockstep_nodeReply {node like : Node} (same : node.Mirrors pairs like) :
    Lockstep settled pairs Counterparts.Same (nodeReply node) (nodeReply like) := by
  refine Lockstep.get.bind fun {near left right} within mirrors => ?_
  have known := same.mono within
  dsimp only
  rw [known.kind_eq, known.text_eq mirrors.naming, known.parameterName?_eq, known.children.texts_eq mirrors.naming]
  refine (Lockstep.written rfl).bind fun _ text => (Lockstep.written rfl).bind fun _ children => ?_
  rw [text, children]
  cases known with
  | @lambda _ _ _ _ _ _ list further _ _ _ lists =>
      dsimp only
      have shown {wide : Counterparts} : Lockstep settled wide Counterparts.Same (some <$> written (left.summarize list))
          (some <$> written (right.summarize further)) :=
        (Lockstep.written (mirrors.summarize_eq lists)).bind fun _ same => .pure (congrArg some same)
      exact shown.bind fun _ same => .pure (congrArg (Reply.node _ _ _ _) same)
  | _ => exact .pure rfl

theorem lockstep_setReply {environment other : Environment} (alike : environment.Mirrors pairs other)
    (name : Literal) {binding like : Binding} (same : binding.Mirrors pairs like) :
    Lockstep settled pairs Counterparts.Same (setReply environment name binding)
      (setReply other name like) :=
  (ScopeId.lockstep_bindLiteral alike.globals name same).bind fun within _ =>
    lockstep_bindingSummary (same.mono within)

end Run

theorem Work.lockstep_keepFrame (name : String) {frame caller : Frame} (frames : frame.Mirrors pairs caller) :
    Work.Lockstep settled pairs Counterparts.Same (Work.keepFrame name frame)
      (Work.keepFrame name caller) := by
  refine (Work.Lockstep.keep fun alike => alike.putFrame name frames).bind fun within _ => ?_
  exact .lift (Run.lockstep_frameReply (frames.mono within))

end LazyStack
