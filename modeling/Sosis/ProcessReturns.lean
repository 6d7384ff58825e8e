import Sosis.KernelRuns

-- Who runs after the kernel has done its work: when a process that was destroyed is
-- entered again.
namespace Sosis.Kernel
open TransitionRuns
open Fat32 (Word)

namespace KernelState

-- With `poweroff`, QEMU answers at the port that process_destroy writes to with the last
-- process, and nothing comes after that call.
def Powered (poweroff : Bool) (k : KernelState) (a : KernelAction) : Prop :=
  k.Follows a ∧ match a with
    | .destroy _ => poweroff = true → k.active_process_count ≠ 1
    | _ => True

-- The way back to user mode leads to an active process, on a directory in use.
def AtHome (k : KernelState) : Prop :=
  ∃ (cur : Slot) (d : Fin PAGING_DIRECTORY_TABLE_MAX_COUNT), k.cur_idx = cur.val ∧ k.active cur = true ∧
    k.cr3 = .list d ∧ k.paging.page_directory_used d = true

-- The creation of the first process is the one call that does not end in user mode.
def Returns (a : KernelAction) (k' : KernelState) : Prop :=
  match a with
  | .init => True
  | _ => AtHome k'

instance (poweroff : Bool) (k : KernelState) : DecidablePred (k.Powered poweroff)
  | .init => inferInstanceAs (Decidable (_ ∧ True))
  | .first => inferInstanceAs (Decidable (_ ∧ True))
  | .tick _ => inferInstanceAs (Decidable (_ ∧ True))
  | .create _ => inferInstanceAs (Decidable (_ ∧ True))
  | .destroy _ => inferInstanceAs (Decidable (_ ∧ (_ → _)))

variable {k k' : KernelState}

theorem Lodged.atHome (lodged : Lodged k) (runs : k.cur_idx ≠ -1) : AtHome k := by
  obtain ⟨cur,idx,active,directory⟩ := lodged.running.resolve_left runs
  obtain ⟨d,own,used⟩ := lodged.housed cur active
  exact ⟨cur,d,idx,active,Option.some.inj (directory.symm.trans own),used⟩

theorem runs_after (lodged : Lodged k) {a : KernelAction} (follows : k.Follows a) (later : a ≠ .init)
    (ran : k.operate a = some k') : k'.cur_idx ≠ -1 := by
  have switched_runs {k k' : KernelState} {i : Slot} {ctx : Context} (switched : Switched k k' i ctx) : k'.cur_idx ≠ -1 := by
    rw [switched.cur_idx]
    exact fun negative => absurd (Int.natCast_nonneg i.val) (by omega)
  cases a with
  | init => exact absurd rfl later
  | first =>
    obtain ⟨⟨ctx,k''⟩,switches,same⟩ := Option.map_eq_some_iff.mp ran
    cases same
    obtain ⟨i,switched⟩ := switch_cases switches
    exact switched_runs switched
  | tick frame =>
    obtain ⟨⟨next,k''⟩,handled,same⟩ := Option.map_eq_some_iff.mp ran
    cases same
    rcases Machine.main_interrupt_cases handled with ⟨_,_,same⟩ | ⟨_,cur,i,middle,ctx,_,_,switched⟩
    · cases same
      exact follows.1
    · exact switched_runs switched
  | create request =>
    rcases creation_cases ran with rfl | ⟨i,d,opened,created⟩
    · exact follows
    · rw [created.cur_idx]
      exact follows
  | destroy pid =>
    obtain ⟨runs,i,active,named⟩ := follows
    rw [(lodged.victim named ran).cur_idx]
    exact runs

-- The one way to leave a dead process in place is to destroy the one that runs.
theorem returns_exact (lodged : Lodged k) {a : KernelAction} (follows : k.Follows a) (ran : k.operate a = some k') :
    Returns a k' ↔ k.Spares a := by
  constructor
  · intro returns
    cases a with
    | destroy pid =>
      intro i active named running
      obtain ⟨cur,d,idx,alive,_⟩ := returns
      have destroyed := lodged.victim named ran
      have same : cur = i := Fin.ext (by exact_mod_cast idx.symm.trans (destroyed.cur_idx.trans running))
      rw [← mem_actives,destroyed.actives,same] at alive
      exact Finset.notMem_erase i k.actives alive
    | init | first | tick | create => trivial
  · intro spares
    have home (later : a ≠ .init) : AtHome k' :=
      (lodged.kept follows spares ran).atHome (runs_after lodged follows later ran)
    cases a with
    | init => trivial
    | first | tick | create | destroy => exact home (by simp)

theorem returns_always_iff {poweroff : Bool} {history : List (Transition KernelState KernelAction)}
    (run : Run (Next (Powered poweroff)) boot history k) :
    (∀ t ∈ history, Returns t.action t.after) ↔ ∀ t ∈ history, t.before.Spares t.action := by
  have keeps : ∀ (k : KernelState) (a : KernelAction) (k' : KernelState), Lodged k → k.Spares a →
      Next (Powered poweroff) k a k' → Lodged k' := by
    rintro k a k' lodged spares ⟨⟨follows,_⟩,ran⟩
    exact lodged.kept follows spares ran
  have exact : ∀ (k : KernelState) (a : KernelAction) (k' : KernelState), Lodged k →
      Next (Powered poweroff) k a k' → (Returns a k' ↔ k.Spares a) := by
    rintro k a k' lodged ⟨⟨follows,_⟩,ran⟩
    exact returns_exact lodged follows ran
  exact Run.each_iff boot_lodged keeps exact run

-- The shell destroys the program it has started.
def stopsHelper : List KernelAction := [.init,.first,.create helperRequest,.destroy 2]

theorem returns_always_iff_helper : ∃ history k, Run (Next (Powered true)) boot history k ∧
    history.map Transition.action = stopsHelper ∧
    ((∀ t ∈ history, Returns t.action t.after) ↔ ∀ t ∈ history, t.before.Spares t.action) := by
  have defined : (boot.operates (Powered true) stopsHelper).isSome = true := by decide +kernel
  obtain ⟨k,operated⟩ := Option.isSome_iff_exists.mp defined
  obtain ⟨history,run,actions⟩ := operates_run operated
  exact ⟨history,k,run,actions,returns_always_iff run⟩

-- The shell destroys itself, and the system call goes back to it.
def stopsItself : List KernelAction := [.init,.first,.create helperRequest,.destroy 1]

theorem stopsItself_returns : ∃ history k, Run (Next (Powered true)) boot history k ∧
    history.map Transition.action = stopsItself ∧ k.cur_idx = 0 ∧ k.active 0 = false ∧
    ¬ ∀ t ∈ history, Returns t.action t.after := by
  have dead : ((boot.operates (Powered true) stopsItself).any fun k => k.cur_idx = 0 ∧ k.active 0 = false) = true := by
    decide +kernel
  obtain ⟨k,operated,dead⟩ := (Option.any_eq_true _ _).mp dead
  obtain ⟨idx,dead⟩ := of_decide_eq_true dead
  obtain ⟨history,run,actions⟩ := operates_run operated
  refine ⟨history,k,run,actions,idx,dead,fun always => ?_⟩
  cases run with
  | nil => cases actions
  | @snoc earlier middle action _ prior taken =>
    have last := congrArg List.getLast? actions
    simp only [List.map_append,List.map_cons,List.map_nil,List.getLast?_concat] at last
    cases last
    obtain ⟨cur,d,here,alive,_⟩ : AtHome k := always ⟨middle,.destroy 1,k⟩ (by simp)
    have zero : (cur.val : Int) = 0 := here.symm.trans idx
    have same : cur = 0 := Fin.ext (Int.natCast_eq_zero.mp zero)
    rw [same,dead] at alive
    cases alive

end KernelState

end Sosis.Kernel
