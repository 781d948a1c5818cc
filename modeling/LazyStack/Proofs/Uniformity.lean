import LazyStack.Host.Library
import LazyStack.Proofs.Resemblance

/-!
Hosts that behave alike. The hosts of the library ask for like actions on like frames, wherever they run and
whatever domain they belong to, and so does a host that pops values and pushes given ones.
-/

namespace LazyStack

variable {pairs : Counterparts}

namespace Program

variable {α β γ δ : Type}

theorem bind_done (program : Program α) : program.bind .done = program := by
  induction program with
  | done => rfl
  | fail => rfl
  | act action _ ih => exact congrArg (Program.act action) (funext ih)
  | attempt action _ ih => exact congrArg (Program.attempt action) (funext ih)

theorem bind_assoc (program : Program α) (first : α → Program β) (second : β → Program γ) :
    (program.bind first).bind second = program.bind fun result => (first result).bind second := by
  induction program with
  | done => rfl
  | fail => rfl
  | act action _ ih => exact congrArg (Program.act action) (funext ih)
  | attempt action _ ih => exact congrArg (Program.attempt action) (funext ih)

instance : LawfulMonad Program :=
  LawfulMonad.mk' Program bind_done (fun _ _ => rfl) bind_assoc

theorem Mirrors.bind {fit : Counterparts → α → β → Prop} {suits : Counterparts → γ → δ → Prop}
    {program : Program α} {other : Program β} {next : α → Program γ} {rest : β → Program δ}
    (first : Program.Mirrors fit pairs program other)
    (later : ∀ {wider result answer}, pairs.Within wider → fit wider result answer →
      Program.Mirrors suits wider (next result) (rest answer)) :
    Program.Mirrors suits pairs (program >>= next) (other >>= rest) := by
  induction first with
  | done fits => exact later (.refl _) fits
  | fail => exact .fail
  | act action _ ih =>
      exact .act action fun within reply => ih within reply fun further => later (within.trans further)
  | attempt action _ ih =>
      exact .attempt action fun within outcome => ih within outcome fun further => later (within.trans further)

theorem mirrors_perform {action other : Action} {replies : Counterparts → action.Reply → other.Reply → Prop}
    (same : Action.Mirrors pairs action other replies) :
    Program.Mirrors replies pairs (perform action) (perform other) :=
  .act same fun _ reply => .done reply

theorem mirrors_create {domain other : DomainId} (paired : pairs (.domain domain) (.domain other)) (tag : Tag)
    {payload like : Payload} (same : payload.Mirrors pairs like) :
    Program.Mirrors Value.Mirrors pairs (create domain tag payload) (create other tag like) :=
  mirrors_perform (.create paired same)

theorem mirrors_expect {value like : Value} (same : value.Mirrors pairs like) (tag : Tag)
    (description : String) :
    Program.Mirrors Payload.Mirrors pairs (expect value tag description) (expect like tag description) :=
  mirrors_perform (.expect same)

theorem mirrors_count {host other : HostId} (paired : pairs (.memory host) (.memory other)) :
    Program.Mirrors Counterparts.Same pairs (perform (.count host) : Program Nat) (perform (.count other)) :=
  mirrors_perform (.count paired)

theorem mirrors_valueText {value like : Value} (same : value.Mirrors pairs like) :
    Program.Mirrors Counterparts.Same pairs (perform (.valueText value) : Program String)
      (perform (.valueText like)) :=
  mirrors_perform (.valueText same)

theorem mirrors_scopeText {scope other : ScopeId} (paired : pairs (.scope scope) (.scope other)) :
    Program.Mirrors Counterparts.Same pairs (perform (.scopeText scope) : Program String)
      (perform (.scopeText other)) :=
  mirrors_perform (.scopeText paired)

theorem mirrors_list {domain other : DomainId} (paired : pairs (.domain domain) (.domain other))
    {items others : List Value} (same : Value.AllMirror pairs items others) :
    Program.Mirrors Value.Mirrors pairs (Program.list domain items) (Program.list other others) := by
  refine (mirrors_perform (.nullOf paired)).bind fun within null => ?_
  induction same with
  | nil => exact .done null
  | cons first _ ih =>
      rw [List.foldrM_cons, List.foldrM_cons]
      exact ih.bind fun further rest =>
        mirrors_create (further (within paired)) .cell (.cell ((first.mono within).mono further) rest)

section Frames

variable {frame caller : Frame} (frames : frame.Mirrors pairs caller)
include frames

theorem mirrors_pop : Program.Mirrors Value.Mirrors pairs (pop frame) (pop caller) :=
  mirrors_perform (.pop frames.stack)

theorem mirrors_popMany (count : Int) :
    Program.Mirrors Value.AllMirror pairs (popMany frame count) (popMany caller count) :=
  mirrors_perform (.popMany frames.stack)

theorem mirrors_push {value like : Value} (same : value.Mirrors pairs like) :
    Program.Mirrors Counterparts.Always pairs (push frame value) (push caller like) :=
  mirrors_perform (.push frames.stack same)

theorem mirrors_call (args returns : Int) {payload like : Payload} (same : payload.Mirrors pairs like) :
    Program.Mirrors Counterparts.Always pairs (call frame args returns payload)
      (call caller args returns like) := by
  cases same with
  | callable target => exact mirrors_perform (.call target frames)
  | _ => exact .done trivial

theorem mirrors_unary {apply act : Value → Program Value}
    (each : ∀ {wider value like}, pairs.Within wider → Value.Mirrors wider value like →
      Program.Mirrors Value.Mirrors wider (apply value) (act like)) :
    Program.Mirrors Counterparts.Always pairs (unary frame apply) (unary caller act) :=
  (mirrors_pop frames).bind fun first value =>
    (each first value).bind fun second result => mirrors_push ((frames.mono first).mono second) result

theorem mirrors_binary {apply act : Value → Value → Program Value}
    (each : ∀ {wider one two first second}, pairs.Within wider → Value.Mirrors wider one first →
      Value.Mirrors wider two second → Program.Mirrors Value.Mirrors wider (apply one two) (act first second)) :
    Program.Mirrors Counterparts.Always pairs (binary frame apply) (binary caller act) :=
  (mirrors_pop frames).bind fun first right =>
    (mirrors_pop (frames.mono first)).bind fun second left =>
      (each (first.trans second) left (right.mono second)).bind fun third result =>
        mirrors_push (((frames.mono first).mono second).mono third) result

theorem mirrors_onIntegers (tag : Tag) {apply : Int → Int → Payload}
    (plain : ∀ {wider : Counterparts} (one two : Int), (apply one two).Mirrors wider (apply one two)) :
    Program.Mirrors Counterparts.Always pairs (onIntegers frame tag apply) (onIntegers caller tag apply) := by
  refine mirrors_binary frames fun within left right => ?_
  refine (mirrors_expect left .int _).bind fun first one => ?_
  refine (mirrors_expect (right.mono first) .int _).bind fun second two => ?_
  rw [one.integer_eq, two.integer_eq]
  exact mirrors_create (second (first left.domain)) tag (plain _ _)

theorem mirrors_onNamed (description : String) {act also : ScopeId → String → Binding → Program Unit}
    (each : ∀ {wider scope other name binding like}, pairs.Within wider →
      wider (.scope scope) (.scope other) → Binding.Mirrors wider binding like →
      Program.Mirrors Counterparts.Always wider (act scope name binding) (also other name like)) :
    Program.Mirrors Counterparts.Always pairs (onNamed frame description act)
      (onNamed caller description also) := by
  refine (mirrors_popMany frames 2).bind fun first values => ?_
  match values with
  | .cons name (.cons value .nil) =>
      refine (mirrors_expect name .symbol description).bind fun second payload => ?_
      rw [payload.symbolName_eq]
      refine (each (first.trans second) (second (first frames.scope)) (.value (value.mono second))).bind
        fun third _ => ?_
      exact mirrors_push (((frames.mono first).mono second).mono third) ((value.mono second).mono third)
  | .nil => exact .done trivial
  | .cons _ .nil => exact .done trivial
  | .cons _ (.cons _ (.cons _ _)) => exact .done trivial

theorem mirrors_branch (domain other : DomainId) (self id : HostId) (args returns : Option Int) :
    Program.Mirrors Counterparts.Always pairs (LibraryHost.body domain self .branch frame args returns)
      (LibraryHost.body other id .branch caller args returns) := by
  refine (mirrors_popMany frames 3).bind fun first values => ?_
  match values with
  | .cons condition (.cons yes (.cons no .nil)) =>
      refine (mirrors_expect condition .bool _).bind fun second truth => ?_
      rw [truth.truth_eq]
      split
      · refine (mirrors_expect (yes.mono second) .callable _).bind fun third payload => ?_
        exact mirrors_call (((frames.mono first).mono second).mono third) 0 1 payload
      · refine (mirrors_expect (no.mono second) .callable _).bind fun third payload => ?_
        exact mirrors_call (((frames.mono first).mono second).mono third) 0 1 payload
  | .nil => exact .done trivial
  | .cons _ .nil => exact .done trivial
  | .cons _ (.cons _ .nil) => exact .done trivial
  | .cons _ (.cons _ (.cons _ (.cons _ _))) => exact .done trivial

end Frames

end Program

open Program

/-- The hosts of the library behave alike in like domains, the one that counts where it has like memories. -/
theorem LibraryHost.body_mirrors (host : LibraryHost) {domain other : DomainId}
    (paired : pairs (.domain domain) (.domain other)) {self id : HostId}
    (memories : host = .tick → pairs (.memory self) (.memory id)) :
    HostBody.Mirrors pairs (host.body domain self) (host.body other id) := by
  refine ⟨fun {wider frame caller args returns} within frames => ?_⟩
  cases host with
  | add => exact mirrors_onIntegers frames .int fun _ _ => .int
  | sub => exact mirrors_onIntegers frames .int fun _ _ => .int
  | mul => exact mirrors_onIntegers frames .int fun _ _ => .int
  | lt =>
      rw [LibraryHost.body, LibraryHost.body]
      exact mirrors_onIntegers frames .bool fun _ _ => .bool
  | concat =>
      refine mirrors_binary frames fun _ left right => ?_
      refine (mirrors_expect left .text _).bind fun first one => ?_
      refine (mirrors_expect (right.mono first) .text _).bind fun second two => ?_
      rw [one.characters_eq, two.characters_eq]
      exact mirrors_create (second (first left.domain)) .text .text
  | cons => exact mirrors_binary frames fun _ left right => mirrors_create left.domain .cell (.cell left right)
  | car =>
      refine mirrors_unary frames fun _ value => ?_
      refine (mirrors_expect value .cell _).bind fun further payload => ?_
      cases payload with
      | cell head _ => exact .done head
      | _ => exact .done (value.mono further)
  | cdr =>
      refine mirrors_unary frames fun _ value => ?_
      refine (mirrors_expect value .cell _).bind fun further payload => ?_
      cases payload with
      | cell _ tail => exact .done tail
      | _ => exact .done (value.mono further)
  | display =>
      refine mirrors_unary frames fun _ value => ?_
      refine (mirrors_valueText value).bind fun further text => ?_
      rw [text]
      exact mirrors_create (further value.domain) .text .text
  | not =>
      refine mirrors_unary frames fun _ value => ?_
      refine (mirrors_expect value .bool _).bind fun further payload => ?_
      rw [payload.truth_eq]
      exact mirrors_create (further value.domain) .bool .bool
  | tick =>
      refine (mirrors_count (within (memories rfl))).bind fun first count => ?_
      rw [count]
      refine (mirrors_create (first (within paired)) .int .int).bind fun second value => ?_
      exact mirrors_push ((frames.mono first).mono second) value
  | depth =>
      refine (mirrors_create (within paired) .int (frames.depth ▸ .int)).bind fun further value => ?_
      exact mirrors_push (frames.mono further) value
  | scope =>
      refine (mirrors_scopeText frames.scope).bind fun first text => ?_
      rw [text]
      refine (mirrors_create (first (within paired)) .text .text).bind fun second value => ?_
      exact mirrors_push ((frames.mono first).mono second) value
  | dup =>
      refine (mirrors_pop frames).bind fun first value => ?_
      refine (mirrors_push (frames.mono first) value).bind fun second _ => ?_
      exact mirrors_push ((frames.mono first).mono second) (value.mono second)
  | drop => exact (mirrors_pop frames).bind fun _ _ => .done trivial
  | branch => exact mirrors_branch frames domain other self id args returns
  | eval =>
      refine (mirrors_pop frames).bind fun first value => ?_
      refine (mirrors_expect value .code _).bind fun second code => ?_
      exact mirrors_perform (.run code.steps ((frames.mono first).mono second))
  | apply =>
      refine (mirrors_pop frames).bind fun first value => ?_
      refine (mirrors_expect value .callable _).bind fun second payload => ?_
      exact mirrors_call ((frames.mono first).mono second) 1 1 payload
  | bind =>
      rw [LibraryHost.body, LibraryHost.body]
      refine mirrors_onNamed frames _ fun _ scopes binding => ?_
      exact mirrors_perform (.bind scopes binding)
  | assign =>
      rw [LibraryHost.body, LibraryHost.body]
      refine mirrors_onNamed frames _ fun _ scopes binding => ?_
      exact mirrors_perform (.rebind scopes binding)
  | list =>
      refine (mirrors_popMany frames _).bind fun first values => ?_
      refine (mirrors_list (first (within paired)) values).bind fun second list => ?_
      exact mirrors_push ((frames.mono first).mono second) list

theorem scriptedBody_mirrors (pops : Nat) {pushes others : List Value}
    (same : Value.AllMirror pairs pushes others) :
    HostBody.Mirrors pairs (scriptedBody pops pushes) (scriptedBody pops others) := by
  refine ⟨fun {wider frame caller args returns} within frames => ?_⟩
  have popping (count : Nat) {near : Counterparts} (frames : frame.Mirrors near caller) :
      Program.Mirrors Counterparts.Always near ((List.replicate count ()).mapM fun _ => pop frame)
        ((List.replicate count ()).mapM fun _ => pop caller) := by
    induction count generalizing near with
    | zero => exact .done trivial
    | succ count ih =>
        rw [List.replicate_succ, List.mapM_cons, List.mapM_cons]
        refine (mirrors_pop frames).bind fun first _ => ?_
        exact (ih (frames.mono first)).bind fun _ _ => .done trivial
  have pushing {near : Counterparts} (frames : frame.Mirrors near caller) {values likes : List Value}
      (same : Value.AllMirror near values likes) :
      Program.Mirrors Counterparts.Always near (values.forM (push frame)) (likes.forM (push caller)) := by
    induction values generalizing likes near with
    | nil =>
        cases same
        exact .done trivial
    | cons value values ih =>
        cases same with
        | cons one rest =>
            exact (mirrors_push frames one).bind fun further _ =>
              ih (frames.mono further) (Value.AllMirror.mono further rest)
  refine (popping pops frames).bind fun first _ => ?_
  exact pushing (frames.mono first) (Value.AllMirror.mono (within.trans first) same)

end LazyStack
