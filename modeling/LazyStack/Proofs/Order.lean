import LazyStack.Proofs.Effect

/-!
The order of what a run does. The course of a moment leads through the states of all moments that come up
in it, by one effect after another. A law that every effect keeps holds between any two of these states.
Of two moments of a course one comes up within the other, or one is over before the other begins. The history
of a moment lists the moments of its course in the order in which they are over.
-/

namespace LazyStack

namespace Moment

variable {relation : State → State → Prop}

def Effect (whole : Moment) (before after : State) : Prop :=
  ∃ moment, whole.Reaches moment ∧ moment.Makes before after

abbrev Leads (whole : Moment) : State → State → Prop :=
  Relation.ReflTransGen whole.Effect

theorem Makes.effect {moment : Moment} : Subrelation moment.Makes moment.Effect :=
  fun made => ⟨moment, .here moment, made⟩

section Between

variable {whole part first second inner : Moment} {before after : State}

theorem Leads.inside (reached : whole.Reaches part) (leads : part.Leads before after) :
    whole.Leads before after := by
  refine leads.lift id ?_
  rintro first second ⟨moment, nested, made⟩
  exact ⟨moment, reached.trans nested, made⟩

theorem Leads.keeps (leads : whole.Leads before after) (effect : Subrelation whole.Effect relation)
    (refl : ∀ state, relation state state)
    (trans : ∀ {first middle last}, relation first middle → relation middle last → relation first last) :
    relation before after := by
  induction leads with
  | refl => exact refl before
  | tail _ changed ih => exact trans ih (effect changed)

theorem leads (whole : Moment) : whole.Leads whole.state whole.after := by
  induction whole using Moment.induction with
  | whole whole ih =>
  exact follows_whole Makes.effect fun part starts =>
    (ih part starts).inside (.inside starts (.here part))

theorem leads_parts (whole : Moment) :
    ∀ part, whole.Starts part → whole.Leads part.state part.after :=
  fun part starts => (leads part).inside (.inside starts (.here part))

theorem Reaches.leads_to (reached : whole.Reaches inner) : whole.Leads whole.state inner.state := by
  induction reached with
  | here => exact .refl
  | inside starts _ ih =>
      exact (starts.follows_in Makes.effect (leads_parts _)).trans (ih.inside (.inside starts (.here _)))

theorem Reaches.leads_from (reached : whole.Reaches inner) : whole.Leads inner.after whole.after := by
  induction reached with
  | here => exact .refl
  | inside starts _ ih =>
      exact (ih.inside (.inside starts (.here _))).trans (starts.follows_out Makes.effect (leads_parts _))

theorem Reaches.leads_end (reached : whole.Reaches inner) : whole.Leads inner.state whole.after :=
  ((leads inner).inside reached).trans reached.leads_from

theorem Enters.leads_end {opened : Scope} {frame : Frame} {start : State}
    (enters : whole.Enters opened frame start) : whole.Leads start whole.after :=
  enters.follows_out Makes.effect (leads_parts whole)

def Sees (whole : Moment) (seen : State) : Prop :=
  ∃ moment, whole.Reaches moment ∧ (seen = moment.state ∨ seen = moment.after)

theorem sees_end (whole : Moment) : whole.Sees whole.after :=
  ⟨whole, .here whole, .inr rfl⟩

theorem Sees.leads {seen : State} (sees : whole.Sees seen) : whole.Leads whole.state seen := by
  obtain ⟨moment, reached, begins | ends⟩ := sees
  · exact begins ▸ reached.leads_to
  · exact ends ▸ reached.leads_to.trans (moment.leads.inside reached)

/-- How a scope comes to be: the body of a call opens it, or a host makes it, with nothing in it. -/
inductive Adds : Moment → ScopeId → Scope → State → Prop
  | opens {moment opened frame start} : moment.Enters opened frame start → Adds moment frame.scope opened start
  | makes (budget : Nat) (parent : Option ScopeId) (state : State) :
      Adds ⟨budget, .action (.newScope parent), state⟩ ⟨state.scopes.size⟩ ⟨[], parent⟩
        { state with scopes := state.scopes.push ⟨[], parent⟩ }

theorem Adds.scopes {scope : ScopeId} {added : Scope} {start : State} (adds : whole.Adds scope added start) :
    scope = ⟨whole.state.scopes.size⟩ ∧ start.scopes = whole.state.scopes.push added := by
  cases adds with
  | opens enters => exact ⟨enters.opens.scope, enters.opens.scopes⟩
  | makes => exact ⟨rfl, rfl⟩

theorem Adds.scope_new {scope : ScopeId} {added : Scope} {start : State} (adds : whole.Adds scope added start) :
    scope.index < start.scopes.size ∧ start.scope scope = added := by
  obtain ⟨rfl, scopes⟩ := adds.scopes
  simp [State.scope, scopes]

theorem Makes.scopes_size (made : inner.Makes before after) :
    after.scopes.size = before.scopes.size ∨ ∃ scope added, inner.Adds scope added after ∧ before = inner.state := by
  cases made with
  | marks => exact .inl rfl
  | promises => exact .inl rfl
  | pushes => exact .inl rfl
  | exchanges => exact .inl rfl
  | enters enters => exact .inr ⟨_, _, .opens enters, rfl⟩
  | leaves => exact .inl rfl
  | resolves => exact .inl rfl
  | acts direct ends =>
      cases direct.changes ends with
      | marks => exact .inl rfl
      | operates => exact .inl rfl
      | binds => exact .inl (by simp [State.bind, State.setScope])
      | rebinds => exact .inl (by simp [State.bind, State.setScope])
      | opens => exact .inr ⟨_, _, .makes _ _ _, rfl⟩
      | newStack => exact .inl rfl
      | delays => exact .inl rfl

theorem Leads.scope_added (leads : whole.Leads before after) {scope : ScopeId}
    (present : scope.index < after.scopes.size) :
    scope.index < before.scopes.size ∨
      ∃ moment added start, whole.Reaches moment ∧ moment.Adds scope added start ∧ whole.Leads start after := by
  induction leads with
  | refl => exact .inl present
  | @tail middle last earlier changed ih =>
      have old (older : scope.index < middle.scopes.size) :
          scope.index < before.scopes.size ∨
            ∃ moment added start, whole.Reaches moment ∧ moment.Adds scope added start ∧
              whole.Leads start last := by
        rcases ih older with first | ⟨moment, added, start, reached, adds, leads⟩
        · exact .inl first
        · exact .inr ⟨moment, added, start, reached, adds, leads.tail changed⟩
      obtain ⟨moment, reached, made⟩ := changed
      rcases made.scopes_size with kept | ⟨other, added, adds, same⟩
      · exact old (kept ▸ present)
      · subst same
        obtain ⟨rfl, scopes⟩ := id adds.scopes
        rw [scopes, Array.size_push] at present
        by_cases last : scope.index = moment.state.scopes.size
        · have same : scope = ⟨moment.state.scopes.size⟩ := ScopeId.index_injective last
          exact .inr ⟨moment, added, _, reached, same ▸ adds, .refl⟩
        · exact old (by omega)

/-- A moment is over when another comes up. -/
def Before (whole first second : Moment) : Prop :=
  ∃ earlier later, whole.Reaches earlier ∧ earlier.Reaches first ∧
    whole.Reaches later ∧ later.Reaches second ∧ later.state = earlier.after

theorem Before.inside (reached : whole.Reaches part) (past : part.Before first second) :
    whole.Before first second := by
  obtain ⟨earlier, later, ends, within, begins, comesUp, meet⟩ := past
  exact ⟨earlier, later, reached.trans ends, within, reached.trans begins, comesUp, meet⟩

theorem Before.leads (past : whole.Before first second) : whole.Leads first.after second.state := by
  obtain ⟨earlier, later, ends, within, begins, comesUp, meet⟩ := past
  have upTo := within.leads_from.inside ends
  rw [← meet] at upTo
  exact upTo.trans (comesUp.leads_to.inside begins)

inductive Continues : Moment → Moment → Moment → Prop
  | rest {budget frame step rest state middle} :
      step.execute (Callable.callWithin budget) frame state = .ok () middle →
      Continues ⟨budget, .steps frame (step :: rest), state⟩ ⟨budget, .step frame step, state⟩
        ⟨budget, .steps frame rest, middle⟩
  | next {budget state middle} {action : Action} {next : action.Reply → Program Unit}
      {reply : action.Reply} :
      action.perform (.within budget) state = .ok reply middle →
      Continues ⟨budget, .program (.act action next), state⟩ ⟨budget, .action action, state⟩
        ⟨budget, .program (next reply), middle⟩
  | goesOn {budget state middle} {action : Action}
      {next : Except Failure action.Reply → Program Unit} {outcome : Except Failure action.Reply} :
      Run.outcome (action.perform (.within budget)) state = .ok outcome middle →
      Continues ⟨budget, .program (.attempt action next), state⟩ ⟨budget, .action action, state⟩
        ⟨budget, .program (next outcome), middle⟩

theorem Continues.starts_first (continues : whole.Continues first second) : whole.Starts first := by
  cases continues with
  | rest executed => exact .first
  | next performed => exact .acts
  | goesOn attempted => exact .attempts

theorem Continues.starts_second (continues : whole.Continues first second) : whole.Starts second := by
  cases continues with
  | rest executed => exact .rest executed
  | next performed => exact .next performed
  | goesOn attempted => exact .goesOn attempted

theorem Continues.meets (continues : whole.Continues first second) : second.state = first.after := by
  cases continues with
  | rest executed => exact (Run.after_of_ok executed).symm
  | next performed =>
      rw [after_action]
      exact (Run.after_of_ok performed).symm
  | goesOn attempted =>
      rw [after_action, ← Run.after_outcome]
      exact (Run.after_of_ok attempted).symm

theorem Continues.ne (continues : whole.Continues first second) : first ≠ second := by
  intro same
  cases continues <;> cases same

theorem Continues.unique {other later : Moment} (continues : whole.Continues first second)
    (again : whole.Continues other later) : first = other ∧ second = later := by
  cases continues with
  | rest executed =>
      cases again with
      | rest again =>
          cases executed.symm.trans again
          exact ⟨rfl, rfl⟩
  | next performed =>
      cases again with
      | next again =>
          cases performed.symm.trans again
          exact ⟨rfl, rfl⟩
  | goesOn attempted =>
      cases again with
      | goesOn again =>
          cases attempted.symm.trans again
          exact ⟨rfl, rfl⟩

theorem Starts.apart (starts : whole.Starts first) (other : whole.Starts second) :
    first = second ∨ whole.Continues first second ∨ whole.Continues second first := by
  cases starts with
  | body admitted => cases other; exact .inl rfl
  | closure entered =>
      cases other with
      | closure again =>
          cases entered.symm.trans again
          exact .inl rfl
  | promise pending entered =>
      cases other with
      | promise _ again =>
          cases entered.symm.trans again
          exact .inl rfl
  | force popped expected =>
      cases other with
      | force again payload =>
          cases popped.symm.trans again
          cases expected.symm.trans payload
          exact .inl rfl
  | host => cases other; exact .inl rfl
  | got bound =>
      cases other with
      | got again =>
          cases bound.symm.trans again
          exact .inl rfl
  | named bound resolved =>
      cases other with
      | named again callee =>
          cases bound.symm.trans again
          cases resolved.symm.trans callee
          exact .inl rfl
  | first =>
      cases other with
      | first => exact .inl rfl
      | rest executed => exact .inr (.inl (.rest executed))
  | rest executed =>
      cases other with
      | first => exact .inr (.inr (.rest executed))
      | rest again =>
          cases executed.symm.trans again
          exact .inl rfl
  | asked => cases other; exact .inl rfl
  | ran => cases other; exact .inl rfl
  | acts =>
      cases other with
      | acts => exact .inl rfl
      | next performed => exact .inr (.inl (.next performed))
  | attempts =>
      cases other with
      | attempts => exact .inl rfl
      | goesOn attempted => exact .inr (.inl (.goesOn attempted))
  | next performed =>
      cases other with
      | acts => exact .inr (.inr (.next performed))
      | next again =>
          cases performed.symm.trans again
          exact .inl rfl
  | goesOn attempted =>
      cases other with
      | attempts => exact .inr (.inr (.goesOn attempted))
      | goesOn again =>
          cases attempted.symm.trans again
          exact .inl rfl

theorem Continues.only {other : Moment} (continues : whole.Continues first second)
    (starts : whole.Starts other) : other = first ∨ other = second := by
  rcases starts.apart continues.starts_first with same | after | before
  · exact .inl same
  · obtain ⟨same, _⟩ := after.unique continues
    exact .inl same
  · obtain ⟨_, same⟩ := before.unique continues
    exact .inr same

theorem parts_cases (whole : Moment) :
    (∀ part, ¬ whole.Starts part) ∨
      (∃ part, whole.Starts part ∧ ∀ other, whole.Starts other → other = part) ∨
      ∃ first second, whole.Continues first second := by
  by_cases goesOn : ∃ first second, whole.Continues first second
  · exact .inr (.inr goesOn)
  · by_cases some : ∃ part, whole.Starts part
    · obtain ⟨part, starts⟩ := some
      refine .inr (.inl ⟨part, starts, fun other begins => ?_⟩)
      rcases begins.apart starts with same | after | before
      · exact same
      · exact absurd ⟨_, _, after⟩ goesOn
      · exact absurd ⟨_, _, before⟩ goesOn
    · exact .inl fun part starts => some ⟨part, starts⟩

/-- Of two moments of a course one comes up in the other, or one is over before the other comes up. -/
theorem Reaches.ordered (reached : whole.Reaches first) (other : whole.Reaches second) :
    first.Reaches second ∨ second.Reaches first ∨ whole.Before first second ∨
      whole.Before second first := by
  induction reached with
  | here => exact .inl other
  | inside starts deeper ih =>
      cases other with
      | here => exact .inr (.inl (.inside starts deeper))
      | inside begins nested =>
          rcases starts.apart begins with same | continues | continues
          · subst same
            rcases ih nested with within | around | before | after
            · exact .inl within
            · exact .inr (.inl around)
            · exact .inr (.inr (.inl (before.inside (.inside starts (.here _)))))
            · exact .inr (.inr (.inr (after.inside (.inside starts (.here _)))))
          · exact .inr (.inr (.inl ⟨_, _, .inside starts (.here _), deeper, .inside begins (.here _),
              nested, continues.meets⟩))
          · exact .inr (.inr (.inr ⟨_, _, .inside begins (.here _), nested, .inside starts (.here _),
              deeper, continues.meets⟩))

end Between

/-- The moments of a course in the order in which they are over, each after its parts. -/
inductive History : Moment → List Moment → Prop
  | alone {whole} : (∀ part, ¬ whole.Starts part) → History whole [whole]
  | single {whole part inner} :
      whole.Starts part → (∀ other, whole.Starts other → other = part) → History part inner →
      History whole (inner ++ [whole])
  | pair {whole first second earlier later} :
      whole.Continues first second → History first earlier → History second later →
      History whole (earlier ++ later ++ [whole])

theorem exists_history (whole : Moment) : ∃ history, whole.History history := by
  induction whole using Moment.induction with
  | whole whole ih =>
  rcases whole.parts_cases with none | ⟨part, starts, only⟩ | ⟨first, second, continues⟩
  · exact ⟨_, .alone none⟩
  · obtain ⟨inner, history⟩ := ih part starts
    exact ⟨_, .single starts only history⟩
  · obtain ⟨earlier, history⟩ := ih first continues.starts_first
    obtain ⟨later, further⟩ := ih second continues.starts_second
    exact ⟨_, .pair continues history further⟩

theorem History.mem_iff {whole : Moment} {history : List Moment} (lists : whole.History history)
    {moment : Moment} : moment ∈ history ↔ whole.Reaches moment := by
  induction lists with
  | alone none =>
      rw [List.mem_singleton]
      constructor
      · rintro rfl
        exact .here _
      · intro reached
        cases reached with
        | here => rfl
        | inside starts _ => exact absurd starts (none _)
  | single starts only _ ih =>
      rw [List.mem_append, List.mem_singleton, ih]
      constructor
      · rintro (inner | rfl)
        · exact .inside starts inner
        · exact .here _
      · intro reached
        cases reached with
        | here => exact .inr rfl
        | inside begins deeper => exact .inl (only _ begins ▸ deeper)
  | pair continues _ _ first second =>
      rw [List.mem_append, List.mem_append, List.mem_singleton, first, second]
      constructor
      · rintro ((inner | inner) | rfl)
        · exact .inside continues.starts_first inner
        · exact .inside continues.starts_second inner
        · exact .here _
      · intro reached
        cases reached with
        | here => exact .inr rfl
        | inside begins deeper =>
            rcases continues.only begins with same | same
            · exact .inl (.inl (same ▸ deeper))
            · exact .inl (.inr (same ▸ deeper))

end Moment

end LazyStack
