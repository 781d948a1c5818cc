import LazyStack.Proofs.SharedThings

/-!
Parties that share a process do not notice each other. Each has registers of its own and takes its turn on the
one state, in any order. What it is told and what it holds is what it would be told and hold alone, up to what
its values, scopes and promises are numbered by.
-/

namespace LazyStack

namespace State

variable {settled : Prop} {pairs own wider : Counterparts} {mine left right after later : State}

/-- What one party does leaves the part of another as it is, where the two share steady things only and neither
counts on a shared host. -/
theorem Advance.spared (advance : Advance settled pairs wider left right after later) (calm : settled)
    (mirrors : mine.Mirrors own right)
    (steady : ∀ {first second thing}, pairs first thing → own second thing → thing.Steady)
    (uncounted : ∀ {first second host thing}, pairs first (.host host) → own second (.host host) →
      ¬ pairs thing (.memory host)) : mine.Mirrors own later where
  oneToOne := mirrors.oneToOne
  has paired := ⟨(mirrors.has paired).1, advance.growing (mirrors.has paired).2⟩
  agree {thing other} paired := by
    obtain ⟨_, there⟩ := mirrors.has paired
    refine (mirrors.agree paired).of_keeps (Keeps.refl mine thing) ?_
    by_cases shared : ∃ first, pairs first other
    · obtain ⟨first, also⟩ := shared
      have common := steady also paired
      cases other with
      | domain id => exact (advance.settles calm).2 id there
      | entry => trivial
      | identity => trivial
      | host id =>
          have counted : right.Keeps later (.memory id) :=
            advance.spares there fun _ counting => uncounted also paired counting
          exact ⟨advance.bodies there, counted⟩
      | scope => exact common.elim
      | stack => exact common.elim
      | promise => exact common.elim
      | memory => exact common.elim
    · exact advance.spares there fun first also => shared ⟨first, also⟩
  callLimit := mirrors.callLimit.trans (advance.settles calm).1.symm
  counted := ⟨mirrors.counted.1, advance.mirrors.counted.2⟩

end State

/-- Parties with one state, and registers for each of them. -/
structure Company (Party : Type) where
  state : State
  registers : Party → Registers

variable {Party : Type}

def Company.session (company : Company Party) (party : Party) : Session :=
  ⟨company.state, company.registers party⟩

def Company.gather (ground : Session) : Company Party :=
  ⟨ground.state, fun _ => ground.registers⟩

/-- Each party's part of the one state mirrors what it has made alone, and what two parts have in common is
steady and not counted on. -/
structure Apart (company : Company Party) (alone : Party → Session) (pairs : Party → Counterparts) : Prop where
  mirrors (party : Party) : (alone party).Mirrors (pairs party) (company.session party)
  steady {one two : Party} {first second thing : Thing} : one ≠ two → pairs one first thing →
    pairs two second thing → thing.Steady
  uncounted {one two : Party} {first second thing : Thing} {host : HostId} : one ≠ two →
    pairs one first (.host host) → pairs two second (.host host) → ¬ pairs one thing (.memory host)

theorem apart_gather {ground : Session} (common : ground.Common) :
    Apart (Company.gather ground : Company Party) (fun _ => ground) fun _ => ground.state.common where
  mirrors _ := common
  steady := by
    rintro _ _ _ _ _ _ _ ⟨rfl, _, steady⟩
    exact steady
  uncounted := by
    rintro _ _ _ _ _ _ _ _ _ ⟨rfl, _, steady⟩
    exact steady

variable [DecidableEq Party]

namespace Company

def act (company : Company Party) (party : Party) (deed : Deed) : Outcome × Company Party :=
  let (outcome, session) := (company.session party).undertake deed.work
  (outcome, ⟨session.state, Function.update company.registers party session.registers⟩)

def doAll (company : Company Party) : List (Party × Deed) → List (Party × Outcome) × Company Party
  | [] => ([], company)
  | (party, deed) :: rest =>
      let (outcome, next) := company.act party deed
      let (outcomes, last) := next.doAll rest
      ((party, outcome) :: outcomes, last)

end Company

def shareOf {α : Type} (party : Party) (entries : List (Party × α)) : List α :=
  (entries.filter fun entry => entry.1 = party).map Prod.snd

variable {company : Company Party} {alone : Party → Session} {pairs : Party → Counterparts}

theorem Apart.act (apart : Apart company alone pairs) (party : Party) {deed : Deed} (plain : deed.Plain)
    (settled : deed.Settled) :
    ((alone party).undertake deed.work).1 = (company.act party deed).1 ∧
      ∃ wider, Apart (company.act party deed).2
        (Function.update alone party ((alone party).undertake deed.work).2) wider := by
  have lockstep : Work.Lockstep True (pairs party) Counterparts.Same deed.work deed.work :=
    deed.lockstep_work plain fun _ => settled
  obtain ⟨outcomes, wider, advance, registers⟩ := Session.undertake_mirrors (apart.mirrors party) lockstep
  -- What is newly paired has just been made, and what another party has is there already.
  have old {other : Party} {first second thing : Thing} (paired : wider first thing)
      (also : pairs other second thing) : pairs party first thing :=
    (advance.fresh paired).resolve_right fun new => new.2 ((apart.mirrors other).state.has also).2
  have uncounted {other : Party} {first second thing : Thing} {host : HostId} (ne : party ≠ other)
      (paired : wider first (.host host)) (also : pairs other second (.host host)) :
      ¬ wider thing (.memory host) := by
    intro counting
    rcases advance.fresh counting with known | ⟨_, new⟩
    · exact apart.uncounted ne (old paired also) also known
    · exact new ((apart.mirrors other).state.has also).2
  refine ⟨outcomes, Function.update pairs party wider, ?_, ?_, ?_⟩
  · intro other
    by_cases same : other = party
    · subst same
      simp only [Company.session, Company.act, Function.update_self]
      exact ⟨advance.mirrors, registers⟩
    · have kept := advance.spared trivial (apart.mirrors other).state (apart.steady (Ne.symm same))
        (apart.uncounted (Ne.symm same))
      simp only [Company.session, Company.act, Function.update_of_ne same]
      exact ⟨kept, (apart.mirrors other).registers⟩
  · intro one two first second thing ne
    by_cases mine : one = party
    · subst mine
      rw [Function.update_self, Function.update_of_ne (Ne.symm ne)]
      exact fun paired also => apart.steady ne (old paired also) also
    · rw [Function.update_of_ne mine]
      by_cases theirs : two = party
      · subst theirs
        rw [Function.update_self]
        exact fun paired also => apart.steady ne paired (old also paired)
      · rw [Function.update_of_ne theirs]
        exact apart.steady ne
  · intro one two first second thing host ne
    by_cases mine : one = party
    · subst mine
      rw [Function.update_self, Function.update_of_ne (Ne.symm ne)]
      exact uncounted ne
    · rw [Function.update_of_ne mine]
      by_cases theirs : two = party
      · subst theirs
        rw [Function.update_self]
        exact fun paired also => apart.uncounted ne paired (old also paired)
      · rw [Function.update_of_ne theirs]
        exact apart.uncounted ne

theorem shareOf_cons_self {α : Type} (party : Party) (entry : α) (rest : List (Party × α)) :
    shareOf party ((party, entry) :: rest) = entry :: shareOf party rest := by
  simp [shareOf]

theorem shareOf_cons_of_ne {α : Type} {party other : Party} (ne : other ≠ party) (entry : α)
    (rest : List (Party × α)) : shareOf party ((other, entry) :: rest) = shareOf party rest := by
  simp [shareOf, ne]

theorem Apart.doAll (apart : Apart company alone pairs) {deeds : List (Party × Deed)}
    (plain : ∀ entry ∈ deeds, entry.2.Plain ∧ entry.2.Settled) (party : Party) :
    ((alone party).doAll (shareOf party deeds)).1 = shareOf party (company.doAll deeds).1 ∧
      ∃ wider, ((alone party).doAll (shareOf party deeds)).2.Mirrors wider
        ((company.doAll deeds).2.session party) := by
  induction deeds generalizing company alone pairs with
  | nil => exact ⟨rfl, _, apart.mirrors party⟩
  | cons entry rest ih =>
      obtain ⟨actor, deed⟩ := entry
      obtain ⟨fine, settled⟩ := plain _ List.mem_cons_self
      obtain ⟨told, wider, next⟩ := apart.act actor fine settled
      obtain ⟨outcomes, held⟩ := ih next fun later member => plain later (List.mem_cons_of_mem _ member)
      by_cases mine : actor = party
      · subst mine
        rw [Function.update_self] at outcomes held
        rw [shareOf_cons_self]
        refine ⟨(congrArg₂ List.cons told outcomes).trans ?_, held⟩
        exact (shareOf_cons_self _ _ _).symm
      · rw [Function.update_of_ne (Ne.symm mine)] at outcomes held
        rw [shareOf_cons_of_ne mine]
        refine ⟨outcomes.trans ?_, held⟩
        exact (shareOf_cons_of_ne mine _ _).symm

/-- Parties that begin with common things only, and whose deeds refer to nothing but what they hold themselves, are
isolated in whatever order they take turns: each is told what it would be told if it did its own deeds alone, and holds
the same in the end, up to numbering. -/
theorem isolated (raw : Option String) {provisions : List Provision}
    (stateless : ∀ provision ∈ provisions, provision.Stateless) {deeds : List (Party × Deed)}
    (plain : ∀ entry ∈ deeds, entry.2.Plain ∧ entry.2.Settled) (party : Party) :
    let ground := Session.ground raw provisions
    let together := (Company.gather ground).doAll deeds
    let alone := ground.doAll (shareOf party deeds)
    shareOf party together.1 = alone.1 ∧ ∃ pairs, alone.2.Mirrors pairs (together.2.session party) := by
  obtain ⟨outcomes, held⟩ := (apart_gather (Session.common_ground raw stateless)).doAll plain party
  exact ⟨outcomes.symm, held⟩

def sharedProvisions : List Provision :=
  [.domain "shared" true,
    .host "dup" "shared" LibraryHost.dup.header fun domain self _ => LibraryHost.dup.body domain self]

def neighbours : List (Bool × Deed) :=
  [(true, .create "env" (some "shared")), (false, .create "env" (some "shared")),
    (true, .command ⟨"env", .set (.text "dup") (.register "dup") true⟩),
    (true, .command ⟨"env", .set (.text "x") (.plain .int (.int 1)) false⟩),
    (false, .command ⟨"env", .set (.text "x") (.plain .int (.int 2)) false⟩),
    (true, .command ⟨"env", .evaluate (.call "dup" [.get "x"] 2) []⟩),
    (false, .command ⟨"env", .evaluate (.call "dup" [.get "x"] 2) []⟩)]

theorem neighbours_isolated :
    (∀ provision ∈ sharedProvisions, provision.Stateless) ∧
      (∀ entry ∈ neighbours, entry.2.Plain ∧ entry.2.Settled) ∧
      shareOf true ((Company.gather (Session.ground none sharedProvisions)).doAll neighbours).1 =
        ((Session.ground none sharedProvisions).doAll (shareOf true neighbours)).1 := by
  have stateless : ∀ provision ∈ sharedProvisions, provision.Stateless :=
    List.forall_mem_cons.mpr
      ⟨trivial, List.forall_mem_singleton.mpr (LibraryHost.stateless_body (by decide))⟩
  have plain : ∀ entry ∈ neighbours, entry.2.Plain ∧ entry.2.Settled := by
    simp [neighbours, Deed.Plain, Deed.Settled, Command.Plain, Command.Settled, ValueSpec.Plain, NodeSpec.Plain,
      NodeSpec.AllPlain, Payload.atomic]
  exact ⟨stateless, plain, (isolated none stateless plain true).1⟩

end LazyStack
