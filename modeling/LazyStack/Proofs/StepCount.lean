import LazyStack.Proofs.Growth
import LazyStack.Proofs.Order

/-!
How many steps a run executes. A call that deepens the frame uses up one of the levels that the limit on
depth leaves, and each level multiplies the number of steps at most by the length of the longest code.
Forcing keeps the frame, but what it calls gets no operand for forcing again.
-/

namespace LazyStack

def Frame.room (limit : Nat) (frame : Frame) : Nat :=
  ((limit : Int) - frame.depth).toNat

/-- The most steps that calls may take, if no code is longer than given, on a given number of levels. -/
def stepBound (longest : Nat) : Nat → Nat
  | 0 => 0
  | levels + 1 => longest * (1 + stepBound longest levels)

namespace Moment

def ownSteps : Moment → Nat
  | ⟨_, .step _ _, _⟩ => 1
  | _ => 0

/-- The number of steps that are executed in the course of a moment. -/
inductive Takes : Moment → Nat → Prop
  | alone {whole} : (∀ part, ¬ whole.Starts part) → Takes whole whole.ownSteps
  | single {whole part count} :
      whole.Starts part → (∀ other, whole.Starts other → other = part) → Takes part count →
      Takes whole (whole.ownSteps + count)
  | pair {whole first second earlier later} :
      whole.Continues first second → Takes first earlier → Takes second later →
      Takes whole (whole.ownSteps + earlier + later)

theorem exists_takes (whole : Moment) : ∃ count, whole.Takes count := by
  induction whole using Moment.induction with
  | whole whole ih =>
  rcases whole.parts_cases with none | ⟨part, starts, only⟩ | ⟨first, second, continues⟩
  · exact ⟨_, .alone none⟩
  · obtain ⟨count, taken⟩ := ih part starts
    exact ⟨_, .single starts only taken⟩
  · obtain ⟨earlier, taken⟩ := ih first continues.starts_first
    obtain ⟨later, further⟩ := ih second continues.starts_second
    exact ⟨_, .pair continues taken further⟩

theorem Takes.unique {whole : Moment} {count other : Nat} (taken : whole.Takes count)
    (again : whole.Takes other) : count = other := by
  induction taken generalizing other with
  | alone none =>
      cases again with
      | alone => rfl
      | single starts => exact absurd starts (none _)
      | pair continues => exact absurd continues.starts_first (none _)
  | single starts only _ ih =>
      cases again with
      | alone none => exact absurd starts (none _)
      | single begins _ taken =>
          have same := only _ begins
          subst same
          rw [ih taken]
      | pair continues =>
          have same := (only _ continues.starts_first).trans (only _ continues.starts_second).symm
          exact absurd same continues.ne
  | pair continues _ _ earlier later =>
      cases again with
      | alone none => exact absurd continues.starts_first (none _)
      | single _ only =>
          have same := (only _ continues.starts_first).trans (only _ continues.starts_second).symm
          exact absurd same continues.ne
      | pair again taken further =>
          obtain ⟨same, sameLater⟩ := continues.unique again
          subst same sameLater
          rw [earlier taken, later further]

def CodesWithin (longest : Nat) (whole : Moment) : Prop :=
  ∀ ⦃budget frame code state⦄, whole.Reaches ⟨budget, .steps frame code, state⟩ → code.length ≤ longest

/-- No host that comes up calls a callable or runs code. -/
abbrev Tame : Moment → Prop :=
  Keeps fun action _ => action.Direct

section Course

variable {whole inner first second : Moment} {longest : Nat}

theorem CodesWithin.part (short : whole.CodesWithin longest) (starts : whole.Starts inner) :
    inner.CodesWithin longest := by
  intro budget frame code state reached
  exact short (.inside starts reached)

theorem CodesWithin.mono {longer : Nat} (short : whole.CodesWithin longest) (least : longest ≤ longer) :
    whole.CodesWithin longer :=
  fun _ _ _ _ reached => Nat.le_trans (short reached) least

theorem exists_codesWithin (whole : Moment) : ∃ longest, whole.CodesWithin longest := by
  induction whole using Moment.induction with
  | whole whole ih =>
  have parts : ∃ longest, ∀ part, whole.Starts part → part.CodesWithin longest := by
    rcases whole.parts_cases with none | ⟨part, starts, only⟩ | ⟨first, second, continues⟩
    · exact ⟨0, fun part starts => absurd starts (none part)⟩
    · obtain ⟨longest, short⟩ := ih part starts
      exact ⟨longest, fun other begins => only other begins ▸ short⟩
    · obtain ⟨longest, short⟩ := ih first continues.starts_first
      obtain ⟨other, others⟩ := ih second continues.starts_second
      refine ⟨max longest other, fun part starts => ?_⟩
      rcases continues.only starts with same | same
      · exact same ▸ short.mono (Nat.le_max_left _ _)
      · exact same ▸ others.mono (Nat.le_max_right _ _)
  have own : ∃ length, ∀ frame code, whole.activity = .steps frame code → code.length ≤ length := by
    cases whole.activity with
    | steps frame code =>
        refine ⟨code.length, fun other found same => ?_⟩
        cases same
        exact Nat.le_refl _
    | _ => exact ⟨0, fun frame code same => by cases same⟩
  obtain ⟨longest, short⟩ := parts
  obtain ⟨length, least⟩ := own
  refine ⟨max length longest, fun budget frame code state reached => ?_⟩
  cases reached with
  | here => exact Nat.le_trans (least frame code rfl) (Nat.le_max_left _ _)
  | inside starts deeper => exact Nat.le_trans (short _ starts deeper) (Nat.le_max_right _ _)

def allowance (longest : Nat) : Moment → Nat
  | ⟨_, .call _ frame _ _, state⟩ => stepBound longest (frame.room state.callLimit)
  | ⟨_, .body _ frame _ _, state⟩ => stepBound longest (frame.room state.callLimit)
  | ⟨_, .step frame _, state⟩ => 1 + stepBound longest (frame.room state.callLimit)
  | ⟨_, .steps frame code, state⟩ => code.length * (1 + stepBound longest (frame.room state.callLimit))
  | ⟨_, .program _, _⟩ => 0
  | ⟨_, .action _, _⟩ => 0

theorem ownSteps_le (whole : Moment) : whole.ownSteps ≤ whole.allowance longest := by
  obtain ⟨budget, activity, state⟩ := whole
  cases activity with
  | step frame single => exact Nat.le_add_right 1 _
  | _ => exact Nat.zero_le _

theorem allowance_of_entered {frame caller : Frame} {code : List Step} {state start : State}
    (short : code.length ≤ longest) (limit : start.callLimit = state.callLimit)
    (deeper : frame.depth = caller.depth + 1) (shallow : caller.depth + 1 ≤ (state.callLimit : Int)) :
    code.length * (1 + stepBound longest (frame.room start.callLimit)) ≤
      stepBound longest (caller.room state.callLimit) := by
  have room : caller.room state.callLimit = frame.room state.callLimit + 1 := by
    rw [Frame.room, Frame.room, deeper]
    omega
  rw [limit, room, stepBound]
  exact Nat.mul_le_mul_right _ short

theorem Starts.allowance_le (tame : whole.Tame) (short : whole.CodesWithin longest)
    (starts : whole.Starts inner) :
    inner.allowance longest + whole.ownSteps ≤ whole.allowance longest := by
  have limit := (State.Grows.of_starts starts).callLimit
  have length {budget frame code state} (same : inner = ⟨budget, .steps frame code, state⟩) :
      code.length ≤ longest := by
    subst same
    exact short (.inside starts (.here _))
  cases starts with
  | body admitted => exact Nat.le_refl _
  | closure entered =>
      obtain ⟨deeper, shallow⟩ := enterClosure_deeper entered
      exact allowance_of_entered (length rfl) limit deeper shallow
  | promise pending entered =>
      obtain ⟨deeper, shallow⟩ := enterPromise_deeper entered
      exact allowance_of_entered (length rfl) limit deeper shallow
  | force popped expected =>
      dsimp only at limit
      rw [allowance, allowance, limit]
      exact Nat.le_refl _
  | host => exact Nat.zero_le _
  | got bound => exact Nat.le_of_eq (Nat.add_comm _ 1)
  | named bound resolved => exact Nat.le_of_eq (Nat.add_comm _ 1)
  | first =>
      rw [allowance, allowance, List.length_cons]
      exact Nat.le_mul_of_pos_left _ (Nat.succ_pos _)
  | rest executed =>
      dsimp only at limit
      rw [allowance, allowance, limit]
      exact Nat.mul_le_mul_right _ (Nat.le_succ _)
  | asked =>
      obtain ⟨_, _, direct⟩ := tame.minds
      cases direct
  | ran =>
      obtain ⟨_, _, direct⟩ := tame.minds
      cases direct
  | acts => exact Nat.le_refl _
  | attempts => exact Nat.le_refl _
  | next performed => exact Nat.le_refl _
  | goesOn attempted => exact Nat.le_refl _

theorem Continues.allowance_le (continues : whole.Continues first second) :
    first.allowance longest + second.allowance longest + whole.ownSteps ≤ whole.allowance longest := by
  have limit := (State.Grows.of_starts continues.starts_second).callLimit
  cases continues with
  | rest executed =>
      dsimp only at limit
      simp only [allowance, ownSteps, limit, List.length_cons, Nat.succ_mul]
      omega
  | next performed => exact Nat.le_refl _
  | goesOn attempted => exact Nat.le_refl _

theorem Takes.le_allowance {count : Nat} (taken : whole.Takes count) (tame : whole.Tame)
    (short : whole.CodesWithin longest) : count ≤ whole.allowance longest := by
  induction taken with
  | alone _ => exact ownSteps_le _
  | single starts _ _ ih =>
      have part := ih (tame.part starts) (short.part starts)
      have total := starts.allowance_le tame short
      omega
  | pair continues _ _ ih later =>
      have begun := ih (tame.part continues.starts_first) (short.part continues.starts_first)
      have goesOn := later (tame.part continues.starts_second) (short.part continues.starts_second)
      have total : _ ≤ allowance longest _ := continues.allowance_le
      omega

end Course

end Moment

end LazyStack
