import Mathlib.Data.List.TakeWhile
import Xty.General.LittleEndian
import Xty.General.RecordLocks
import Xty.General.Runs

/-! `xtyLog::DoWriteLog` in any number of processes that log to the same file. -/

namespace Xty.Facility.LogFile

open Xty.General.LittleEndian Xty.General.RecordLocks Xty.General.Runs

def logMsgLen : ℕ := 4094

/-- What `buf` holds up to its first zero, for the output of the format. -/
def line (formatted : Bytes) : Bytes := (formatted.take (logMsgLen - 1)).takeWhile (· ≠ 0) ++ [10]

/-- The end of the file counts as it is when `fcntl` is called, and the lock may come later. -/
inductive Pc where
  | idle
  | formatted (buf : Bytes)
  | waiting (buf : Bytes) (start : ℕ)
  | locked (buf : Bytes)
  | written (writebytes : ℕ)
  | ended
deriving DecidableEq, Repr

structure State (ι π : Type) where
  file : Bytes
  locks : Locks π
  pc : ι → Pc

inductive Action (ι π : Type) where
  | writeLog (i : ι) (formatted : Bytes)
  | setLock (i : ι)
  | getLock (i : ι)
  | write (i : ι) (writebytes : ℕ)
  | unLock (i : ι)
  | exit (p : π)

variable {ι π : Type}

def State.init (file : Bytes) : State ι π := ⟨file, fun _ => [], fun _ => .idle⟩

section Steps

variable [DecidableEq ι] [DecidableEq π] [Fintype π] (process : ι → π)

def State.goto (s : State ι π) (i : ι) (c : Pc) : State ι π :=
  { s with pc := Function.update s.pc i c }

/-- The file is open for appending. The locks of a process go with it. -/
def step (s : State ι π) : Action ι π → Option (State ι π)
  | .writeLog i msg => if s.pc i = .idle then some (s.goto i (.formatted (line msg))) else none
  | .setLock i =>
    match s.pc i with
    | .formatted buf => some (s.goto i (.waiting buf s.file.length))
    | _ => none
  | .getLock i =>
    match s.pc i with
    | .waiting buf start =>
      if Conflict s.locks (process i) start then none
      else some { s.goto i (.locked buf) with locks := lockFrom s.locks (process i) start }
    | _ => none
  | .write i writebytes =>
    match s.pc i with
    | .locked buf =>
      if writebytes ≤ buf.length then
        some { s.goto i (.written writebytes) with file := s.file ++ buf.take writebytes }
      else none
    | _ => none
  | .unLock i =>
    match s.pc i with
    | .written writebytes => some { s.goto i .idle with
        locks := unLockFrom s.locks (process i) (s.file.length - writebytes) }
    | _ => none
  | .exit p => some { s with
      locks := release s.locks p
      pc := fun i => if process i = p then .ended else s.pc i }

end Steps

section Lines

lemma length_line (msg : Bytes) : (line msg).length ≤ logMsgLen := by
  have hlen : ((msg.take (logMsgLen - 1)).takeWhile (· ≠ 0)).length ≤ logMsgLen - 1 :=
    ((List.takeWhile_sublist _).length_le).trans (List.length_take_le _ _)
  rw [line, List.length_append, List.length_singleton]
  rw [logMsgLen] at hlen ⊢
  omega

lemma zero_not_mem_line (msg : Bytes) : 0 ∉ line msg := by
  rw [line, List.mem_append, not_or]
  refine ⟨fun h => ?_, by decide⟩
  simpa using List.mem_takeWhile_imp h

end Lines

section Invariant

variable {process : ι → π} {s t : State ι π} {i j : ι} {c : Pc} {m : ℕ} {r : Range}

def Pc.inside : Pc → Bool
  | .locked _ | .written _ => true
  | .idle | .formatted _ | .waiting .. | .ended => false

structure State.Behind (s : State ι π) (m : ℕ) : Prop where
  inFile : m ≤ s.file.length
  writing : ∀ i k, s.pc i = .written k → m + k ≤ s.file.length

def State.Kept (s : State ι π) (r : Range) : Prop := ∃ m, r.Settled m ∧ s.Behind m

/-- One thread at a time has everything from some byte on, and what the processes have kept ends
before the line that is being written. -/
structure Inv (process : ι → π) (s : State ι π) : Prop where
  single : ∀ i j, (s.pc i).inside = true → (s.pc j).inside = true → i = j
  unbounded : ∀ i, (s.pc i).inside = true → ∃ r ∈ s.locks (process i), r.stop = none
  bounded : ∀ p, ∀ r ∈ s.locks p,
    (∃ i, process i = p ∧ (s.pc i).inside = true ∧ r.stop = none) ∨ s.Kept r

lemma inv_init (file : Bytes) : Inv process (State.init file : State ι π) :=
  ⟨nofun, nofun, nofun⟩

lemma Inv.kept (h : Inv process s) {p : π} (hr : r ∈ s.locks p)
    (hp : ∀ i, process i = p → (s.pc i).inside = false) : s.Kept r := by
  rcases h.bounded p r hr with ⟨i, hi, hin, _⟩ | hk
  · rw [hp i hi] at hin
    cases hin
  · exact hk

lemma State.Kept.not_reaches (h : s.Kept r) : r.reaches s.file.length = false := by
  obtain ⟨m, hr, hm⟩ := h
  exact (hr.mono hm.inFile).not_reaches

/-- A line that the step writes begins where the file ended. -/
structure State.Grows (s t : State ι π) : Prop where
  file : s.file.length ≤ t.file.length
  writing : ∀ i k, t.pc i = .written k → s.pc i = .written k ∨ s.file.length + k ≤ t.file.length

lemma State.Grows.behind (h : s.Grows t) (hm : s.Behind m) : t.Behind m := by
  refine ⟨hm.inFile.trans h.file, fun i k hi => ?_⟩
  rcases h.writing i k hi with hi | hle
  · exact (hm.writing i k hi).trans h.file
  · exact (Nat.add_le_add_right hm.inFile k).trans hle

lemma State.Grows.kept (h : s.Grows t) (hr : s.Kept r) : t.Kept r :=
  hr.imp fun _ hm => ⟨hm.1, h.behind hm.2⟩

variable [DecidableEq ι]

lemma goto_pc_of_ne (h : j ≠ i) : (s.goto i c).pc j = s.pc j := Function.update_of_ne h _ _

lemma pc_goto {b : Pc} (h : (s.goto i c).pc j = b) : (j = i ∧ c = b) ∨ (j ≠ i ∧ s.pc j = b) := by
  by_cases hj : j = i
  · subst hj
    exact .inl ⟨rfl, by simpa [State.goto] using h⟩
  · exact .inr ⟨hj, by simpa [State.goto, hj] using h⟩

lemma State.Grows.goto {file : Bytes} (locks : Locks π) (hf : s.file.length ≤ file.length)
    (hc : ∀ k, c = .written k → s.file.length + k ≤ file.length) :
    s.Grows ⟨file, locks, (s.goto i c).pc⟩ := by
  refine ⟨hf, fun j k hj => ?_⟩
  rcases pc_goto hj with ⟨_, hk⟩ | ⟨_, hj⟩
  · exact .inr (hc k hk)
  · exact .inl hj

section Grows

variable [DecidableEq π] [Fintype π] {a : Action ι π}

lemma grows_of_step (hs : LogFile.step process s a = some t) : s.Grows t := by
  cases a with
  | writeLog i msg =>
    rw [LogFile.step] at hs
    split_ifs at hs
    obtain rfl := Option.some.inj hs
    exact .goto _ le_rfl (by simp)
  | setLock i | unLock i =>
    simp only [LogFile.step] at hs
    split at hs
    · obtain rfl := Option.some.inj hs
      exact .goto _ le_rfl (by simp)
    · cases hs
  | getLock i =>
    simp only [LogFile.step] at hs
    split at hs
    · split_ifs at hs
      obtain rfl := Option.some.inj hs
      exact .goto _ le_rfl (by simp)
    · cases hs
  | write i k =>
    simp only [LogFile.step] at hs
    split at hs
    · split_ifs at hs with hk
      obtain rfl := Option.some.inj hs
      refine .goto _ (by simp) fun l hl => ?_
      obtain rfl := Pc.written.inj hl
      simp [hk]
    · cases hs
  | exit p =>
    obtain rfl := Option.some.inj hs
    refine ⟨le_rfl, fun j k hj => .inl ?_⟩
    change (if process j = p then Pc.ended else s.pc j) = .written k at hj
    split_ifs at hj
    exact hj

end Grows

lemma Inv.outside (h : Inv process s) (hg : s.Grows (s.goto i c)) (hi : (s.pc i).inside = false)
    (hc : c.inside = false) : Inv process (s.goto i c) := by
  have hother : ∀ j, ((s.goto i c).pc j).inside = true → (s.pc j).inside = true := by
    intro j hj
    rcases pc_goto (b := (s.goto i c).pc j) rfl with ⟨_, he⟩ | ⟨_, he⟩
    · rw [← he, hc] at hj
      cases hj
    · rwa [he]
  refine ⟨fun j k hj hk => h.single j k (hother j hj) (hother k hk),
    fun j hj => h.unbounded j (hother j hj), fun p r hr => ?_⟩
  rcases h.bounded p r hr with ⟨j, hp, hj, hs⟩ | hk
  · refine .inl ⟨j, hp, ?_, hs⟩
    have hne : j ≠ i := by
      rintro rfl
      rw [hi] at hj
      cases hj
    simpa [State.goto, hne] using hj
  · exact .inr (hg.kept hk)

lemma Inv.write {k : ℕ} {file : Bytes} (h : Inv process s)
    (hg : s.Grows { s.goto i (.written k) with file := file }) (hin : (s.pc i).inside = true) :
    Inv process { s.goto i (.written k) with file := file } := by
  have hsame : ∀ j, ((s.goto i (.written k)).pc j).inside = (s.pc j).inside := by
    intro j
    by_cases hj : j = i
    · subst hj
      rw [hin]
      simp [State.goto, Pc.inside]
    · simp [State.goto, hj]
  refine ⟨fun j l hj hl => h.single j l ((hsame j).symm.trans hj) ((hsame l).symm.trans hl),
    fun j hj => h.unbounded j ((hsame j).symm.trans hj), fun p r hr => ?_⟩
  rcases h.bounded p r hr with ⟨j, hp, hj, hs⟩ | hk
  · exact .inl ⟨j, hp, (hsame j).trans hj, hs⟩
  · exact .inr (hg.kept hk)

variable [DecidableEq π]

/-- The lock is given up from where the line begins, and nothing that was kept lies behind that. -/
lemma Inv.unLock {k : ℕ} (h : Inv process s) (hg : s.Grows { s.goto i .idle with
      locks := unLockFrom s.locks (process i) (s.file.length - k) }) (hi : s.pc i = .written k) :
    Inv process { s.goto i .idle with
      locks := unLockFrom s.locks (process i) (s.file.length - k) } := by
  have hin : (s.pc i).inside = true := by
    rw [hi]
    rfl
  have hnone : ∀ j, ((s.goto i .idle).pc j).inside = false := by
    intro j
    by_cases hj : j = i
    · subst hj
      simp [State.goto, Pc.inside]
    · rw [Bool.eq_false_iff]
      intro hjin
      exact hj (h.single j i (by simpa [State.goto, hj] using hjin) hin)
  refine ⟨fun j l hj => absurd ((hnone j).symm.trans hj) (by simp),
    fun j hj => absurd ((hnone j).symm.trans hj) (by simp), fun p r hr => .inr ?_⟩
  change r ∈ unLockFrom s.locks (process i) (s.file.length - k) p at hr
  by_cases hp : p = process i
  · subst hp
    rw [unLockFrom, Function.update_self, List.mem_filterMap] at hr
    obtain ⟨r₀, hr₀, hbelow⟩ := hr
    refine ⟨_, Range.below_settled hbelow fun b hb => ?_, Nat.sub_le _ _, fun j l hj => ?_⟩
    swap
    · have hout := hnone j
      change (s.goto i .idle).pc j = _ at hj
      rw [hj] at hout
      cases hout
    rcases h.bounded _ r₀ hr₀ with ⟨_, _, _, hs⟩ | ⟨m, ⟨c, hc, hlt, _⟩, _⟩
    · rw [hs] at hb
      cases hb
    · obtain rfl : c = b := by simpa [hc] using hb
      exact hlt
  · rw [unLockFrom, Function.update_of_ne hp] at hr
    refine hg.kept (h.kept hr fun j hj => ?_)
    rw [Bool.eq_false_iff]
    intro hjin
    exact hp (hj.symm.trans (congrArg process (h.single j i hjin hin)))

omit [DecidableEq ι] in
lemma Inv.exit (h : Inv process s) {p : π} (hg : s.Grows { s with
      locks := release s.locks p
      pc := fun i => if process i = p then .ended else s.pc i }) : Inv process { s with
    locks := release s.locks p
    pc := fun i => if process i = p then .ended else s.pc i } := by
  have hin : ∀ j, (if process j = p then Pc.ended else s.pc j).inside = true →
      process j ≠ p ∧ (s.pc j).inside = true := by
    intro j hj
    split_ifs at hj with hp
    · cases hj
    · exact ⟨hp, hj⟩
  refine ⟨fun j l hj hl => h.single j l (hin j hj).2 (hin l hl).2, fun j hj => ?_,
    fun q r hr => ?_⟩
  · obtain ⟨hp, hj⟩ := hin j hj
    obtain ⟨r, hr, hs⟩ := h.unbounded j hj
    exact ⟨r, by simpa [release, hp] using hr, hs⟩
  · change r ∈ release s.locks p q at hr
    by_cases hq : q = p
    · simp [release, hq] at hr
    · rw [release, Function.update_of_ne hq] at hr
      rcases h.bounded q r hr with ⟨j, rfl, hj, hs⟩ | hk
      · exact .inl ⟨j, rfl, by simpa [hq] using hj, hs⟩
      · exact .inr (hg.kept hk)

lemma Inv.getLock {buf : Bytes} {start : ℕ} (hinj : Function.Injective process)
    (h : Inv process s) (hg : s.Grows { s.goto i (.locked buf) with
      locks := lockFrom s.locks (process i) start }) (hi : s.pc i = .waiting buf start)
    (hfree : ¬ Conflict s.locks (process i) start) :
    Inv process { s.goto i (.locked buf) with locks := lockFrom s.locks (process i) start } := by
  have hnone : ∀ j, (s.pc j).inside = false := by
    intro j
    rw [Bool.eq_false_iff]
    intro hj
    obtain ⟨r, hr, hs⟩ := h.unbounded j hj
    have hji : j ≠ i := by
      rintro rfl
      rw [hi] at hj
      cases hj
    exact hfree ⟨process j, hinj.ne hji, r, hr, by simp [Range.reaches, hs]⟩
  have honly : ∀ j, ((s.goto i (.locked buf)).pc j).inside = true → j = i := by
    intro j hj
    rcases pc_goto (b := (s.goto i (.locked buf)).pc j) rfl with ⟨he, _⟩ | ⟨_, he⟩
    · exact he
    · rw [← he, hnone j] at hj
      cases hj
  refine ⟨fun j k hj hk => (honly j hj).trans (honly k hk).symm, fun j hj => ?_, fun p r hr => ?_⟩
  · obtain rfl := honly j hj
    exact ⟨⟨start, none⟩, by simp [lockFrom], rfl⟩
  · change r ∈ lockFrom s.locks (process i) start p at hr
    by_cases hp : p = process i
    · subst hp
      rw [lockFrom, Function.update_self, List.mem_cons] at hr
      rcases hr with rfl | hr
      · exact .inl ⟨i, rfl, by simp [State.goto, Pc.inside], rfl⟩
      · exact .inr (hg.kept (h.kept hr fun j _ => hnone j))
    · rw [lockFrom, Function.update_of_ne hp] at hr
      exact .inr (hg.kept (h.kept hr fun j _ => hnone j))

variable [Fintype π]

lemma Inv.step {a : Action ι π} (hinj : Function.Injective process) (h : Inv process s)
    (hs : LogFile.step process s a = some t) : Inv process t := by
  have hg := grows_of_step hs
  cases a with
  | writeLog i msg =>
    rw [LogFile.step] at hs
    split_ifs at hs with hi
    obtain rfl := Option.some.inj hs
    exact h.outside hg (by rw [hi]; rfl) rfl
  | setLock i =>
    simp only [LogFile.step] at hs
    split at hs
    · next hi =>
      obtain rfl := Option.some.inj hs
      exact h.outside hg (by rw [hi]; rfl) rfl
    · cases hs
  | getLock i =>
    simp only [LogFile.step] at hs
    split at hs
    · next hi =>
      split_ifs at hs with hfree
      obtain rfl := Option.some.inj hs
      exact h.getLock hinj hg hi hfree
    · cases hs
  | write i k =>
    simp only [LogFile.step] at hs
    split at hs
    · next hi =>
      split_ifs at hs
      obtain rfl := Option.some.inj hs
      exact h.write hg (by rw [hi]; rfl)
    · cases hs
  | unLock i =>
    simp only [LogFile.step] at hs
    split at hs
    · next hi =>
      obtain rfl := Option.some.inj hs
      exact h.unLock hg hi
    · cases hs
  | exit p =>
    obtain rfl := Option.some.inj hs
    exact h.exit hg

end Invariant

section Waiting

variable [DecidableEq ι] [DecidableEq π] [Fintype π] {process : ι → π} {s t : State ι π}
  {a : Action ι π} {i : ι} {q : π} {r : Range} {buf : Bytes} {start : ℕ}

lemma State.Kept.stays (hk : s.Kept r) (hr : r ∈ s.locks q) (ha : a ≠ .exit q)
    (hs : LogFile.step process s a = some t) : r ∈ t.locks q := by
  cases a with
  | writeLog i msg =>
    rw [LogFile.step] at hs
    split_ifs at hs
    obtain rfl := Option.some.inj hs
    exact hr
  | setLock i =>
    simp only [LogFile.step] at hs
    split at hs
    · obtain rfl := Option.some.inj hs
      exact hr
    · cases hs
  | getLock i =>
    simp only [LogFile.step] at hs
    split at hs
    · split_ifs at hs
      obtain rfl := Option.some.inj hs
      change r ∈ lockFrom s.locks (process i) _ q
      rw [lockFrom, Function.update_apply]
      split_ifs with hq
      · exact List.mem_cons_of_mem _ (hq ▸ hr)
      · exact hr
    · cases hs
  | write i k =>
    simp only [LogFile.step] at hs
    split at hs
    · split_ifs at hs
      obtain rfl := Option.some.inj hs
      exact hr
    · cases hs
  | unLock i =>
    simp only [LogFile.step] at hs
    split at hs
    · next k hi =>
      obtain rfl := Option.some.inj hs
      change r ∈ unLockFrom s.locks (process i) (s.file.length - k) q
      rw [unLockFrom, Function.update_apply]
      split_ifs with hq
      · obtain ⟨m, hm, hbehind⟩ := hk
        refine List.mem_filterMap.mpr ⟨r, hq ▸ hr, (hm.mono ?_).below⟩
        exact Nat.le_sub_of_add_le (hbehind.writing i k hi)
      · exact hr
    · cases hs
  | exit p =>
    obtain rfl := Option.some.inj hs
    change r ∈ release s.locks p q
    rwa [release, Function.update_of_ne]
    rintro rfl
    exact ha rfl

lemma waiting_step (hi : s.pc i = .waiting buf start) (hc : Conflict s.locks (process i) start)
    (ha : a ≠ .exit (process i)) (hs : LogFile.step process s a = some t) :
    t.pc i = .waiting buf start := by
  cases a with
  | writeLog j msg =>
    rw [LogFile.step] at hs
    split_ifs at hs with hj
    obtain rfl := Option.some.inj hs
    refine (goto_pc_of_ne ?_).trans hi
    rintro rfl
    rw [hi] at hj
    cases hj
  | setLock j | unLock j =>
    simp only [LogFile.step] at hs
    split at hs
    · next hj =>
      obtain rfl := Option.some.inj hs
      refine (goto_pc_of_ne ?_).trans hi
      rintro rfl
      rw [hi] at hj
      cases hj
    · cases hs
  | getLock j =>
    simp only [LogFile.step] at hs
    split at hs
    · next hj =>
      split_ifs at hs with hfree
      obtain rfl := Option.some.inj hs
      refine (goto_pc_of_ne ?_).trans hi
      rintro rfl
      rw [hi] at hj
      obtain ⟨_, rfl⟩ := Pc.waiting.inj hj
      exact hfree hc
    · cases hs
  | write j k =>
    simp only [LogFile.step] at hs
    split at hs
    · next hj =>
      split_ifs at hs
      obtain rfl := Option.some.inj hs
      refine (goto_pc_of_ne ?_).trans hi
      rintro rfl
      rw [hi] at hj
      cases hj
    · cases hs
  | exit p =>
    obtain rfl := Option.some.inj hs
    refine (if_neg ?_).trans hi
    rintro rfl
    exact ha rfl

lemma State.Kept.waiting (hk : s.Kept r) (hr : r ∈ s.locks q) (hq : q ≠ process i)
    (hreach : r.reaches start = true) (hi : s.pc i = .waiting buf start)
    (h : Reaches (LogFile.step process) (fun _ a => a ≠ .exit q ∧ a ≠ .exit (process i)) s t) :
    t.pc i = .waiting buf start := by
  suffices hall : t.Kept r ∧ r ∈ t.locks q ∧ t.pc i = .waiting buf start from hall.2.2
  refine h.invariant (I := fun t => t.Kept r ∧ r ∈ t.locks q ∧ t.pc i = .waiting buf start)
    ⟨hk, hr, hi⟩ ?_
  rintro u a v ⟨hk, hr, hi⟩ ⟨haq, hai⟩ hs
  exact ⟨(grows_of_step hs).kept hk, hk.stays hr haq hs,
    waiting_step hi ⟨q, hq, r, hr, hreach⟩ hai hs⟩

/-- A thread that finds the lock free writes its line. -/
lemma Inv.writes (h : Inv process s) (hfree : ∀ j, (s.pc j).inside = false)
    (hi : s.pc i = .formatted buf) :
    ∃ t, execute (LogFile.step process) Free s
        [.setLock i, .getLock i, .write i buf.length, .unLock i] = some t ∧
      t.pc i = .idle ∧ t.file = s.file ++ buf := by
  have hno : ¬ Conflict s.locks (process i) s.file.length := by
    rintro ⟨q, _, r, hr, hreach⟩
    rw [(h.kept hr fun j _ => hfree j).not_reaches] at hreach
    cases hreach
  simp [execute, Free, LogFile.step, State.goto, hi, hno]

end Waiting

section History

/-- The lines of the calls of `WriteLog`, and what has been written of them. -/
structure Log (ι : Type) where
  calls : List (ι × Bytes)
  written : List (ι × Bytes)

variable [DecidableEq ι]

def linesOf (i : ι) (l : List (ι × Bytes)) : List Bytes := (l.filter (·.1 = i)).map Prod.snd

def record (s : State ι π) (a : Action ι π) (_ : State ι π) (g : Log ι) : Log ι :=
  match a with
  | .writeLog i msg => { g with calls := g.calls ++ [(i, line msg)] }
  | .write i k =>
    match s.pc i with
    | .locked buf => { g with written := g.written ++ [(i, buf.take k)] }
    | _ => g
  | .setLock _ | .getLock _ | .unLock _ | .exit _ => g

def Pc.due : Pc → List Bytes
  | .formatted buf | .waiting buf _ | .locked buf => [buf]
  | .idle | .written _ | .ended => []

/-- `write` takes the whole line. -/
def Complete (s : State ι π) : Action ι π → Prop
  | .write i writebytes => ∀ buf ∈ (s.pc i).due, writebytes = buf.length
  | .writeLog .. | .setLock _ | .getLock _ | .unLock _ | .exit _ => True

instance (s : State ι π) : ∀ a, Decidable (Complete s a)
  | .write i _ => inferInstanceAs (Decidable (∀ buf ∈ (s.pc i).due, _))
  | .writeLog .. | .setLock _ | .getLock _ | .unLock _ | .exit _ => isTrue trivial

/-- A thread that has ended may have left its last line out. -/
structure Kept (g : Log ι) (i : ι) (c : Pc) : Prop where
  due : c ≠ .ended → linesOf i g.calls = linesOf i g.written ++ c.due
  last : ∃ rest, rest.length ≤ 1 ∧ linesOf i g.calls = linesOf i g.written ++ rest
  lines : ∀ buf ∈ c.due, ∃ msg, buf = line msg

structure LogInv (file : Bytes) (s : State ι π) (g : Log ι) : Prop where
  content : s.file = file ++ (g.written.map Prod.snd).flatten
  lines : ∀ c ∈ g.written, ∃ msg, c.2 = line msg
  kept : ∀ i, Kept g i (s.pc i)

variable {process : ι → π} {file : Bytes} {s t : State ι π} {g : Log ι} {i j : ι} {c : Pc}
  {l : List (ι × Bytes)} {b : Bytes}

lemma linesOf_self : linesOf i (l ++ [(i, b)]) = linesOf i l ++ [b] := by
  simp [linesOf, List.filter_append]

lemma linesOf_other (h : j ≠ i) : linesOf j (l ++ [(i, b)]) = linesOf j l := by
  simp [linesOf, List.filter_append, h.symm]

lemma Pc.length_due (c : Pc) : c.due.length ≤ 1 := by cases c <;> simp [due]

lemma Kept.of_due (h : linesOf i g.calls = linesOf i g.written ++ c.due)
    (hlines : ∀ buf ∈ c.due, ∃ msg, buf = line msg) : Kept g i c :=
  ⟨fun _ => h, ⟨_, c.length_due, h⟩, hlines⟩

lemma Kept.ended (h : Kept g i c) : Kept g i .ended := ⟨fun h => absurd rfl h, h.last, nofun⟩

lemma LogInv.goto {locks : Locks π} (h : LogInv file s g) (hi : s.pc i ≠ .ended)
    (hc : c.due = (s.pc i).due) :
    LogInv file ⟨s.file, locks, (s.goto i c).pc⟩ g where
  content := h.content
  lines := h.lines
  kept := by
    have hdue := (h.kept i).due hi
    have hlines := (h.kept i).lines
    rw [← hc] at hdue hlines
    exact (Function.forall_update_iff s.pc _).mpr ⟨.of_due hdue hlines, fun j _ => h.kept j⟩

lemma LogInv.writeLog (h : LogInv file s g) (hi : s.pc i = .idle) (msg : Bytes) :
    LogInv file (s.goto i (.formatted (line msg)))
      { g with calls := g.calls ++ [(i, line msg)] } where
  content := h.content
  lines := h.lines
  kept := by
    have hold := (h.kept i).due (by simp [hi])
    refine (Function.forall_update_iff s.pc _).mpr ⟨.of_due ?_ (by simp [Pc.due]), fun j hj => ?_⟩
    · rw [hi] at hold
      simpa [linesOf_self, Pc.due] using hold
    · obtain ⟨hdue, hlast, hlines⟩ := h.kept j
      exact ⟨by rwa [linesOf_other hj], by rwa [linesOf_other hj], hlines⟩

lemma LogInv.write {buf : Bytes} (h : LogInv file s g) (hi : s.pc i = .locked buf) :
    LogInv file { s.goto i (.written buf.length) with file := s.file ++ buf }
      { g with written := g.written ++ [(i, buf)] } where
  content := by simp [h.content]
  lines := List.forall_mem_append.mpr ⟨h.lines, List.forall_mem_singleton.mpr
    ((h.kept i).lines buf (by simp [hi, Pc.due]))⟩
  kept := by
    have hold := (h.kept i).due (by simp [hi])
    refine (Function.forall_update_iff s.pc _).mpr ⟨.of_due ?_ (by simp [Pc.due]), fun j hj => ?_⟩
    · rw [hi] at hold
      simpa [linesOf_self, Pc.due] using hold
    · obtain ⟨hdue, hlast, hlines⟩ := h.kept j
      exact ⟨by rwa [linesOf_other hj], by rwa [linesOf_other hj], hlines⟩

lemma LogInv.exit [DecidableEq π] (h : LogInv file s g) (locks : Locks π) (p : π) :
    LogInv file ⟨s.file, locks, fun i => if process i = p then .ended else s.pc i⟩ g where
  content := h.content
  lines := h.lines
  kept i := by
    change Kept g i (if process i = p then .ended else s.pc i)
    split_ifs
    · exact (h.kept i).ended
    · exact h.kept i

variable [DecidableEq π] [Fintype π]

lemma LogInv.step {a : Action ι π} (h : LogInv file s g) (hc : Complete s a)
    (hs : LogFile.step process s a = some t) : LogInv file t (record s a t g) := by
  cases a with
  | writeLog i msg =>
    rw [LogFile.step] at hs
    split_ifs at hs with hi
    obtain rfl := Option.some.inj hs
    exact h.writeLog hi msg
  | setLock i | unLock i =>
    simp only [LogFile.step] at hs
    split at hs
    · next hi =>
      obtain rfl := Option.some.inj hs
      exact h.goto (by simp [hi]) (by rw [hi]; rfl)
    · cases hs
  | getLock i =>
    simp only [LogFile.step] at hs
    split at hs
    · next hi =>
      split_ifs at hs
      obtain rfl := Option.some.inj hs
      exact h.goto (by simp [hi]) (by rw [hi]; rfl)
    · cases hs
  | write i k =>
    simp only [LogFile.step] at hs
    split at hs
    · next buf hi =>
      split_ifs at hs
      obtain rfl := Option.some.inj hs
      obtain rfl := hc buf (by simp [hi, Pc.due])
      have hwrite := h.write hi
      simpa [record, hi] using hwrite
    · cases hs
  | exit p =>
    obtain rfl := Option.some.inj hs
    exact h.exit _ p

omit [DecidableEq π] [Fintype π] in
lemma logInv_init : LogInv file (State.init file : State ι π) ⟨[], []⟩ :=
  ⟨by simp [State.init], nofun, fun _ => .of_due rfl nofun⟩

end History

section Result

variable [DecidableEq ι] [DecidableEq π] [Fintype π] {process : ι → π} {file : Bytes}

structure Sound (process : ι → π) (file : Bytes) (s : State ι π) (g : Log ι) : Prop where
  content : s.file = file ++ (g.written.map Prod.snd).flatten
  lines : ∀ c ∈ g.written, (∃ msg, c.2 = line msg) ∧ c.2.length ≤ logMsgLen ∧ 0 ∉ c.2
  inOrder : ∀ i, ∃ rest, rest.length ≤ 1 ∧
    linesOf i g.calls = linesOf i g.written ++ rest ∧ (s.pc i = .idle → rest = [])
  exclusive : ∀ i j, (s.pc i).inside = true → (s.pc j).inside = true → i = j
  served : (∀ j, (s.pc j).inside = false) → ∀ i buf, s.pc i = .formatted buf →
    ∃ t, execute (step process) Free s
        [.setLock i, .getLock i, .write i buf.length, .unLock i] = some t ∧
      t.pc i = .idle ∧ t.file = s.file ++ buf
  forEver : ∀ i buf start q, s.pc i = .waiting buf start → q ≠ process i →
    (∃ r ∈ s.locks q, r.reaches start = true) →
    (∀ j, process j = q → (s.pc j).inside = false) →
    ∀ t, Reaches (step process) (fun _ a => a ≠ .exit q ∧ a ≠ .exit (process i)) s t →
      t.pc i = .waiting buf start

/-- In processes of one logging thread each, whole lines come one behind another, those of a thread
in the order of its calls, and who finds the lock free gets through. The lock is asked for at the
end that the file has then, and given up from the start of the line that was written: a process
that had to wait keeps what others wrote meanwhile, and shuts out for ever who asked before. -/
theorem log_file_sound (hinj : Function.Injective process) {s : State ι π} {g : Log ι}
    (h : Observed (step process) record Complete (State.init file, ⟨[], []⟩) (s, g)) :
    Sound process file s g := by
  have hinv : Inv process s := h.run.invariant (inv_init file) fun _ _ _ hu _ hs => hu.step hinj hs
  have hlog : LogInv file s g := by
    refine Reaches.invariant (I := fun x => LogInv file x.1 x.2) h logInv_init ?_
    rintro x a y hx hc hs
    obtain ⟨hstep, hrecord⟩ := observe_some hs
    rw [hrecord]
    exact hx.step hc hstep
  refine ⟨hlog.content, fun c hc => ?_, fun i => ?_, hinv.single,
    fun hfree i buf hi => hinv.writes hfree hi, ?_⟩
  · obtain ⟨msg, hmsg⟩ := hlog.lines c hc
    exact ⟨⟨msg, hmsg⟩, hmsg ▸ length_line msg, hmsg ▸ zero_not_mem_line msg⟩
  · obtain ⟨hdue, ⟨rest, hlen, hrest⟩, _⟩ := hlog.kept i
    refine ⟨rest, hlen, hrest, fun hi => ?_⟩
    have hnone := hdue (by simp [hi])
    rw [hi, Pc.due, hrest] at hnone
    exact List.append_cancel_left hnone
  · rintro i buf start q hi hq ⟨r, hr, hreach⟩ hout t ht
    exact (hinv.kept hr hout).waiting hr hq hreach hi ht

/-- The second process had to wait while the first wrote, and the third waits for ever. -/
theorem log_file_sound_shut_out : ∃ (s : State (Fin 3) (Fin 3)) (g : Log (Fin 3)),
    Observed (step id) record Complete (State.init [], ⟨[], []⟩) (s, g) ∧
      g.written = [(0, [97, 10]), (1, [98, 10])] ∧
      (∀ t, Reaches (step id) (fun _ a => a ≠ .exit 1 ∧ a ≠ .exit 2) s t →
        t.pc 2 = .waiting [99, 10] 0) ∧ Sound id [] s g := by
  have h : (execute (observe (step id) record) (fun x => Complete x.1)
      ((State.init [], ⟨[], []⟩) : State (Fin 3) (Fin 3) × Log (Fin 3))
      [.writeLog 0 [97], .writeLog 1 [98], .writeLog 2 [99], .setLock 0, .setLock 1, .setLock 2,
        .getLock 0, .write 0 2, .unLock 0, .getLock 1, .write 1 2, .unLock 1]).map
      (fun x => (x.2.written, x.1.locks 1, x.1.pc 1, x.1.pc 2)) =
      some ([(0, [97, 10]), (1, [98, 10])], [⟨0, some 2⟩], .idle, .waiting [99, 10] 0) := by
    decide +kernel
  obtain ⟨⟨s, g⟩, hs, hv⟩ := reaches_of_execute_map h
  simp only [Prod.mk.injEq] at hv
  obtain ⟨hw, hlocks, hone, htwo⟩ := hv
  have hsound := log_file_sound Function.injective_id hs
  refine ⟨s, g, hs, hw, hsound.forEver 2 _ _ 1 htwo (by decide) ⟨⟨0, some 2⟩, ?_, rfl⟩ ?_, hsound⟩
  · simp [hlocks]
  · rintro j rfl
    rw [hone]
    rfl

end Result

end Xty.Facility.LogFile
