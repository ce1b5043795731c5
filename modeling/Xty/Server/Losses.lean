import Mathlib.Data.Set.Card
import Xty.Server.Accounting
import Xty.Server.Rest

/-! The entities that the server loses, and how it stops when it has lost them all. -/

namespace Xty.Server

open Xty.General.Runs Xty.General.LittleEndian
open Xty.Message

/-- The entity is occupied, and there is nobody who will give it back. -/
structure Lost (s : State) (i : ℕ) : Prop where
  occupied : ∃ m, s.entities[i]? = some ⟨m, true⟩
  unacquired : s.epoll.acquiring ≠ some i
  unheld : ∀ r ∈ s.held, s.entities.owned i ≠ some r.ptr

/-- An exception, a message that the loop drops, and one for a client that is not there. -/
def Loses (s : State) : Action → Prop
  | .epoll (.deSerialize _) =>
    match s.epoll with
    | .acquired _ b r _ =>
      match DeSerializeEntity.deSerialize (b.region r) with
      | .error (.raised _) => True
      | _ => False
    | _ => False
  | .loop .callBack => s.calls = some .ignore ∨ s.calls = some .quit
  | .send .lockTable =>
    match s.send with
    | .copied _ toIP toName => matching toIP toName s.table.entries = []
    | _ => False
  | _ => False

instance (s : State) (a : Action) : Decidable (Loses s a) := by
  unfold Loses
  split
  · split
    · split
      · exact isTrue trivial
      · exact isFalse id
    · exact isFalse id
  · infer_instance
  · split
    · infer_instance
    · exact isFalse id
  · exact isFalse id

def countLoss (s : State) (a : Action) (_ : State) (n : ℕ) : ℕ := if Loses s a then n + 1 else n

section Losing

variable {s t : State} {i : ℕ} {r : Reference}

lemma lost_congr (hent : t.entities = s.entities) (hacq : t.epoll.acquiring = s.epoll.acquiring)
    (hheld : ∀ r, r ∈ t.held ↔ r ∈ s.held) : Lost t i ↔ Lost s i := by
  have hall : (∀ r ∈ t.held, t.entities.owned i ≠ some r.ptr) ↔
      ∀ r ∈ s.held, s.entities.owned i ≠ some r.ptr := by
    rw [hent]
    exact forall_congr' fun r => imp_congr_left (hheld r)
  constructor
  · rintro ⟨hocc, hne, hun⟩
    exact ⟨hent ▸ hocc, hacq ▸ hne, hall.mp hun⟩
  · rintro ⟨hocc, hne, hun⟩
    exact ⟨hent ▸ hocc, hacq ▸ hne, hall.mpr hun⟩

lemma owned_eq {m : Option ℕ} (h : s.entities[i]? = some ⟨m, true⟩) : s.entities.owned i = m := by
  rw [EntityArray.owned, h]
  rfl

lemma lost_release (h : Owned s) (hr : r ∈ s.held)
    (hent : t.entities = s.entities.releaseEntity r.ptr) (hacq : t.epoll = s.epoll)
    (hheld : ∀ r', r' ∈ s.held ↔ r' = r ∨ r' ∈ t.held) : Lost t i ↔ Lost s i := by
  have hown : t.entities.owned i = s.entities.owned i := by
    rw [hent]
    exact EntityArray.release_owned _ _
  constructor
  · rintro ⟨⟨m, hm⟩, hne, hun⟩
    have hmr : m ≠ some r.ptr := by
      rintro rfl
      rw [hent] at hm
      exact EntityArray.release_not_occupies h.distinct ⟨i, hm⟩
    have hm' := EntityArray.release_occupied (hent ▸ hm)
    refine ⟨⟨m, hm'⟩, hacq ▸ hne, fun r' hr' => ?_⟩
    rcases (hheld r').mp hr' with rfl | hr'
    · rwa [owned_eq hm']
    · rw [← hown]
      exact hun r' hr'
  · rintro ⟨⟨m, hm⟩, hne, hun⟩
    have hmr : m ≠ some r.ptr := by
      have := hun r hr
      rwa [owned_eq hm] at this
    refine ⟨⟨m, ?_⟩, hacq ▸ hne, fun r' hr' => ?_⟩
    · rw [hent]
      exact EntityArray.release_getElem hm hmr
    · rw [hown]
      exact hun r' ((hheld r').mpr (.inr hr'))

lemma lost_drop (h : Owned s) (hent : t.entities = s.entities) (hacq : t.epoll = s.epoll)
    (hheld : s.held.Perm (r :: t.held)) : ∃ i, ¬ Lost s i ∧ ∀ j, Lost t j ↔ j = i ∨ Lost s j := by
  have hr : r ∈ s.held := hheld.mem_iff.mpr List.mem_cons_self
  have hnd := ((hheld.map Reference.ptr).nodup_iff).mp h.nodup
  rw [List.map_cons, List.nodup_cons] at hnd
  obtain ⟨_, i, hi⟩ := h.intact r hr
  have hown := owned_eq hi
  refine ⟨i, fun hl => hl.unheld r hr hown, fun j => ⟨fun hl => ?_, ?_⟩⟩
  · refine or_iff_not_imp_left.mpr fun hji => ⟨hent ▸ hl.occupied, hacq ▸ hl.unacquired, ?_⟩
    intro r' hr' hj
    rcases List.mem_cons.mp (hheld.mem_iff.mp hr') with rfl | hr'
    · exact hji (h.distinct j i _ hj hown)
    · exact hl.unheld r' hr' (hent ▸ hj)
  · rintro (rfl | hl)
    · refine ⟨⟨_, hent ▸ hi⟩, fun hc => ?_, fun r' hr' hj => ?_⟩
      · rw [hacq] at hc
        cases hpc : s.epoll with
        | acquired =>
          rw [hpc] at hc
          obtain rfl := Option.some.inj hc
          exact (h.acquired _ _ _ _ hpc).2 r hr hown
        | polling | accepted | found | closed | received | deSerialized =>
          rw [hpc] at hc
          cases hc
      · rw [hent, hown] at hj
        exact hnd.1 (Option.some.inj hj ▸ List.mem_map_of_mem hr')
    · refine ⟨hent ▸ hl.occupied, hacq ▸ hl.unacquired, fun r' hr' => ?_⟩
      rw [hent]
      exact hl.unheld r' (hheld.mem_iff.mpr (List.mem_cons_of_mem _ hr'))

lemma lost_acquire {j : ℕ} {A : EntityArray} {c : Connection} {b : RecvBuffer} {d : ReadBytes}
    (hpc : s.epoll = .received c b d) (hacq : s.entities.acquireEntity = some (j, A)) :
    Lost { s with entities := A, epoll := .acquired c b d j } i ↔ Lost s i := by
  by_cases hij : i = j
  · subst hij
    obtain ⟨_, m, hm⟩ := EntityArray.acquire_some hacq
    refine iff_of_false (fun hl => hl.unacquired rfl) fun hl => ?_
    obtain ⟨m', hm'⟩ := hl.occupied
    cases hm.symm.trans hm'
  · have hget : A[i]? = s.entities[i]? := EntityArray.acquire_getElem_ne hacq (Ne.symm hij)
    have hheld : State.held { s with entities := A, epoll := .acquired c b d j } = s.held := by
      rw [State.held, State.held, hpc]
      rfl
    constructor
    · rintro ⟨hocc, _, hun⟩
      refine ⟨hget ▸ hocc, by rw [hpc]; exact (Option.some_ne_none i).symm, fun r hr => ?_⟩
      rw [← EntityArray.acquire_owned hacq]
      exact hun r (hheld ▸ hr)
    · rintro ⟨⟨m, hm⟩, _, hun⟩
      refine ⟨⟨m, hget.trans hm⟩, fun he => hij (Option.some.inj he).symm, fun r hr => ?_⟩
      change A.owned i ≠ _
      rw [EntityArray.acquire_owned hacq]
      exact hun r (hheld ▸ hr)

section Decoding

variable {c : Connection} {b : RecvBuffer} {d : ReadBytes} {k p : ℕ} {m : MsgObject}

lemma Owned.fresh (h : Owned s) (hpc : s.epoll = .acquired c b d k) (hfree : s.freed k p = none) :
    ∀ r ∈ s.held, r.ptr ≠ p := by
  rintro r hr rfl
  obtain ⟨⟨cell, hcell, _⟩, _⟩ := h.intact r hr
  rw [freed_of_ne ((h.acquired c b d k hpc).2 r hr), hcell] at hfree
  cases hfree

lemma Owned.not_owned (h : Owned s) (hik : i ≠ k) (hfree : s.freed k p = none) :
    s.entities.owned i ≠ some p := by
  intro hi
  have hk : s.entities.owned k ≠ some p := fun hk => hik (h.distinct i k p hi hk)
  rw [freed_of_ne hk] at hfree
  exact h.live i p hi hfree

lemma lost_make (h : Owned s) (hpc : s.epoll = .acquired c b d k) (hfree : s.freed k p = none)
    (hik : i ≠ k) (hent : t.entities = (s.make k p m).entities) (hacq : t.epoll.acquiring = none)
    (hheld : ∀ r ∈ s.held, r ∈ t.held) (hnew : ∀ r ∈ t.held, r ∈ s.held ∨ r.ptr = p) :
    Lost t i ↔ Lost s i := by
  have hget : t.entities[i]? = s.entities[i]? := by
    rw [hent, make_entities]
    exact EntityArray.hold_getElem_ne hik.symm
  have hown : t.entities.owned i = s.entities.owned i := by
    rw [EntityArray.owned, EntityArray.owned, hget]
  constructor
  · rintro ⟨hocc, _, hun⟩
    refine ⟨hget ▸ hocc, ?_, fun r hr => ?_⟩
    · rw [hpc]
      exact fun he => hik (Option.some.inj he).symm
    · rw [← hown]
      exact hun r (hheld r hr)
  · rintro ⟨hocc, _, hun⟩
    refine ⟨hget ▸ hocc, by rw [hacq]; exact (Option.some_ne_none i).symm, fun r hr => ?_⟩
    rw [hown]
    rcases hnew r hr with hr | rfl
    · exact hun r hr
    · exact h.not_owned hik hfree

lemma make_getElem (h : Owned s) (hpc : s.epoll = .acquired c b d k) :
    (s.make k p m).entities[k]? = some ⟨some p, true⟩ := by
  obtain ⟨⟨m', hm'⟩, _⟩ := h.acquired c b d k hpc
  exact EntityArray.hold_getElem hm'

lemma lost_deSerialize (h : Owned s) (hpc : s.epoll = .acquired c b d k)
    (hfree : s.freed k p = none) :
    Lost { s.make k p m with epoll := .deSerialized c ⟨p, s.objects.length⟩ m } i ↔ Lost s i := by
  by_cases hik : i = k
  · subst hik
    refine iff_of_false (fun hl => ?_) fun hl => hl.unacquired (by rw [hpc]; rfl)
    have hmem : (⟨p, s.objects.length⟩ : Reference) ∈ State.held { s.make i p m with
        epoll := .deSerialized c ⟨p, s.objects.length⟩ m } := List.mem_cons_self
    exact hl.unheld _ hmem (owned_eq (make_getElem (m := m) h hpc))
  · refine lost_make (m := m) h hpc hfree hik rfl rfl (fun r hr => ?_) fun r hr => ?_
    · rw [State.held, hpc] at hr
      exact List.mem_cons_of_mem _ hr
    · rcases List.mem_cons.mp hr with rfl | hr
      · exact .inr rfl
      · rw [State.held, hpc]
        exact .inl hr

lemma lost_raise (h : Owned s) (hpc : s.epoll = .acquired c b d k) (hfree : s.freed k p = none) :
    ¬ Lost s k ∧ ∀ j, Lost { s.make k p m with epoll := .polling } j ↔ j = k ∨ Lost s j := by
  have hheld : State.held { s.make k p m with epoll := .polling } = s.held := by
    rw [State.held, State.held, hpc]
    rfl
  refine ⟨fun hl => hl.unacquired (by rw [hpc]; rfl), fun j => ?_⟩
  by_cases hjk : j = k
  · subst hjk
    refine iff_of_true ⟨⟨_, make_getElem (m := m) h hpc⟩, (Option.some_ne_none j).symm,
      fun r hr he => ?_⟩ (.inl rfl)
    rw [owned_eq (make_getElem (m := m) h hpc)] at he
    exact h.fresh hpc hfree r (hheld ▸ hr) (Option.some.inj he).symm
  · rw [or_iff_right hjk]
    exact lost_make (m := m) h hpc hfree hjk rfl rfl (fun r hr => hheld ▸ hr)
      fun r hr => .inl (hheld ▸ hr)

end Decoding

end Losing

section Steps

variable {s t : State}

/-- What the step loses, which is one entity or none. -/
def LostIn (s : State) (a : Action) (t : State) : Prop :=
  (Loses s a ∧ ∃ i, ¬ Lost s i ∧ ∀ j, Lost t j ↔ j = i ∨ Lost s j) ∨
    (¬ Loses s a ∧ ∀ j, Lost t j ↔ Lost s j)

lemma lostIn_epoll (h : Owned s) {a : EpollAction} (hs : EpollTransition s a t) :
    LostIn s (.epoll a) t := by
  cases hs with
  | findNone => exact .inr ⟨id, fun j => Iff.rfl⟩
  | refuse => exact .inr ⟨id, fun j => lost_congr rfl rfl fun r => Iff.rfl⟩
  | accept hpc | addClient hpc | find hpc | wouldBlock hpc | eof hpc | removeClient hpc
  | read hpc =>
    refine .inr ⟨id, fun j => lost_congr rfl (by rw [hpc]; rfl) fun r => ?_⟩
    rw [State.held, State.held, hpc]
    rfl
  | acquireEntity hpc hacq => exact .inr ⟨id, fun j => lost_acquire hpc hacq⟩
  | deSerialize hpc hfree hdec =>
    refine .inr ⟨?_, fun j => lost_deSerialize h hpc hfree⟩
    simp [Loses, hpc, hdec]
  | raise hpc hfree hdec =>
    refine .inl ⟨?_, _, lost_raise h hpc hfree⟩
    simp [Loses, hpc, hdec]
  | pushMsg hpc =>
    refine .inr ⟨id, fun j => lost_congr rfl (by rw [hpc]; rfl) fun r => ?_⟩
    simp only [State.held, hpc, EpollPc.held, List.mem_append]
    tauto

lemma lostIn_loop (h : Owned s) {a : LoopAction} (hs : LoopTransition s a t) :
    LostIn s (.loop a) t := by
  cases hs with
  | getMsg hpc hq =>
    refine .inr ⟨id, fun j => lost_congr rfl rfl fun r => ?_⟩
    simp only [State.held, hpc, hq, LoopPc.held, List.mem_append, List.mem_cons]
    tauto
  | @drop r cell f pc hpc hcell hfun hend =>
    refine .inl ⟨?_, lost_drop (r := r) h rfl rfl ?_⟩
    · rw [Loses, calls_eq hpc hcell hfun]
      obtain ⟨rfl, _⟩ | ⟨rfl, _⟩ := hend <;> simp
    · rw [List.perm_iff_count]
      intro r'
      obtain ⟨_, rfl⟩ | ⟨_, rfl⟩ := hend <;>
      · simp only [State.held, hpc, LoopPc.held, List.count_append, List.count_cons,
          List.count_nil]
        omega
  | reg hpc hcell hfun | deReg hpc hcell hfun =>
    refine .inr ⟨?_, fun j => lost_congr rfl rfl fun r => ?_⟩
    · rw [Loses, calls_eq hpc hcell hfun]
      simp
    · rw [State.held, State.held, hpc]
      rfl
  | data hpc hcell hfun =>
    refine .inr ⟨?_, fun j => lost_congr rfl rfl fun r => ?_⟩
    · rw [Loses, calls_eq hpc hcell hfun]
      simp
    · simp only [State.held, hpc, LoopPc.held, List.mem_append, List.mem_singleton]
      tauto
  | @release r hpc =>
    refine .inr ⟨id, fun j => lost_release h (r := r) ?_ rfl rfl fun r' => ?_⟩
    · simp [State.held, hpc, LoopPc.held]
    · simp only [State.held, hpc, LoopPc.held, List.mem_append, List.mem_singleton]
      tauto

lemma lostIn_send (h : Owned s) {a : SendAction} (hc : GivesBackLast s (.send a))
    (hs : SendTransition s a t) : LostIn s (.send a) t := by
  cases hs with
  | popMsg hpc hq =>
    refine .inr ⟨id, fun j => lost_congr rfl rfl fun r => ?_⟩
    simp only [State.held, hpc, hq, SendPc.held, List.mem_append, List.mem_cons]
    tauto
  | copyStrings hpc =>
    refine .inr ⟨id, fun j => lost_congr rfl rfl fun r => ?_⟩
    rw [State.held, State.held, hpc]
    rfl
  | @lockTable r toIP toName hpc =>
    by_cases hmatch : matching toIP toName s.table.entries = []
    · refine .inl ⟨?_, lost_drop (r := r) h rfl rfl ?_⟩
      · simpa [Loses, hpc] using hmatch
      · rw [List.perm_iff_count]
        intro r'
        simp only [State.held, hpc, SendPc.held, hmatch, List.isEmpty_nil, if_true,
          List.count_append, List.count_cons, List.count_nil]
        omega
    · refine .inr ⟨?_, fun j => lost_congr rfl rfl fun r => ?_⟩
      · simpa [Loses, hpc] using hmatch
      · simp [State.held, hpc, SendPc.held, hmatch]
  | unlock hpc =>
    refine .inr ⟨id, fun j => lost_congr rfl rfl fun r => ?_⟩
    rw [State.held, State.held, hpc]
    rfl
  | skip hpc hskip =>
    refine .inr ⟨id, fun j => lost_congr rfl rfl fun r => ?_⟩
    rw [State.held, State.held, hpc, SendPc.held, SendPc.held, matching_cons_skip hskip]
  | write hpc hmatch =>
    refine .inr ⟨id, fun j => lost_congr rfl rfl fun r => ?_⟩
    rw [State.held, State.held, hpc, SendPc.held, SendPc.held, matching_cons_match hmatch]
    rfl
  | @release r toIP toName rest hpc =>
    have hlast : matching toIP toName rest = [] := by
      simpa [GivesBackLast, hpc] using hc
    refine .inr ⟨id, fun j => lost_release h (r := r) ?_ rfl rfl fun r' => ?_⟩
    · simp [State.held, hpc, SendPc.held]
    · simp only [State.held, hpc, SendPc.held, hlast, List.isEmpty_nil, if_true, List.mem_append,
        List.mem_singleton, List.not_mem_nil]
      tauto

lemma lostIn_step (h : Owned s) {a : Action} (hc : GivesBackLast s a) (hs : Transition s a t) :
    LostIn s a t := by
  cases hs with
  | epoll hs => exact lostIn_epoll h hs
  | loop hs => exact lostIn_loop h hs
  | send hs => exact lostIn_send h hc hs

end Steps

section Counting

variable {s t : State} {n : ℕ}

def State.lost (s : State) : Set ℕ := {i | Lost s i}

lemma lost_lt {i : ℕ} (h : Lost s i) : i < s.entities.length := by
  obtain ⟨m, hm⟩ := h.occupied
  exact (List.getElem?_eq_some_iff.mp hm).1

lemma lost_subset (s : State) : s.lost ⊆ Set.Iio s.entities.length := fun _ h => lost_lt h

lemma lost_finite (s : State) : s.lost.Finite := (Set.finite_Iio _).subset (lost_subset s)

lemma entities_length {a : Action} (hs : Transition s a t) :
    t.entities.length = s.entities.length := by
  cases hs with
  | epoll hs =>
    cases hs with
    | acquireEntity _ hacq => exact (EntityArray.acquire_length hacq).2
    | deSerialize | raise => exact List.length_modify _ _ _
    | refuse | accept | addClient | find | findNone | wouldBlock | eof | removeClient | read
    | pushMsg => rfl
  | loop hs =>
    cases hs with
    | release => exact EntityArray.release_length _ _
    | getMsg | drop | reg | deReg | data => rfl
  | send hs =>
    cases hs with
    | release => exact EntityArray.release_length _ _
    | popMsg | copyStrings | lockTable | unlock | skip | write => rfl

lemma LostIn.mono {a : Action} (h : LostIn s a t) : s.lost ⊆ t.lost := by
  intro i hi
  rcases h with ⟨_, k, _, hk⟩ | ⟨_, hall⟩
  · exact (hk i).mpr (.inr hi)
  · exact (hall i).mpr hi

lemma LostIn.ncard {a : Action} (h : LostIn s a t) (hn : s.lost.ncard = n) :
    t.lost.ncard = countLoss s a t n := by
  rcases h with ⟨hl, k, hk, hall⟩ | ⟨hl, hall⟩
  · have hset : t.lost = insert k s.lost := Set.ext hall
    have hk : k ∉ s.lost := hk
    rw [countLoss, if_pos hl, hset, Set.ncard_insert_of_notMem hk (lost_finite s), hn]
  · have hset : t.lost = s.lost := Set.ext hall
    rw [countLoss, if_neg hl, hset, hn]

lemma lost_of_occupied {i : ℕ} {m : Option ℕ} (hheld : s.held = [])
    (hacq : s.epoll.acquiring = none) (hi : s.entities[i]? = some ⟨m, true⟩) : Lost s i :=
  ⟨⟨m, hi⟩, by rw [hacq]; nofun, by rw [hheld]; nofun⟩

lemma acquireEntity_none : s.entities.acquireEntity = none ↔
    ∀ i < s.entities.length, ∃ m, s.entities[i]? = some ⟨m, true⟩ := by
  rw [EntityArray.acquireEntity, Option.map_eq_none_iff, EntityArray.searchAvailableEntity,
    List.findIdx?_eq_none_iff]
  constructor
  · intro h i hi
    have hocc : s.entities[i].isOccupied = true := by
      simpa using h _ (List.getElem_mem hi)
    refine ⟨s.entities[i].deSerializedMsg, ?_⟩
    rw [List.getElem?_eq_getElem hi, ← hocc]
  · intro h x hx
    obtain ⟨i, hi, rfl⟩ := List.getElem_of_mem hx
    obtain ⟨m, hm⟩ := h i hi
    rw [List.getElem?_eq_getElem hi] at hm
    rw [Option.some.inj hm]
    rfl

structure Bookkeeping (s : State) (n : ℕ) : Prop where
  owned : Owned s
  length : s.entities.length = serverDeSerializeEntityNum
  count : s.lost.ncard = n

lemma bookkeeping_init (E : SerializeEntity) : Bookkeeping (State.init E) 0 where
  owned := owned_init E
  length := List.length_replicate
  count := by
    rw [Set.ncard_eq_zero (lost_finite _), Set.eq_empty_iff_forall_notMem]
    rintro i ⟨⟨m, hm⟩, _⟩
    rw [State.init, EntityArray.create, List.getElem?_replicate] at hm
    split_ifs at hm
    cases hm

lemma Bookkeeping.step (h : Bookkeeping s n) {a : Action} (hc : GivesBackLast s a)
    (hs : Transition s a t) : Bookkeeping t (countLoss s a t n) where
  owned := h.owned.step hc hs
  length := (entities_length hs).trans h.length
  count := (lostIn_step h.owned hc hs).ncard h.count

lemma Bookkeeping.all_lost (h : Bookkeeping s n) :
    n = serverDeSerializeEntityNum ↔ ∀ i < serverDeSerializeEntityNum, Lost s i := by
  have hcard : (Set.Iio serverDeSerializeEntityNum).ncard = serverDeSerializeEntityNum := by
    simp [Set.ncard_eq_toFinset_card']
  have hsub : s.lost ⊆ Set.Iio serverDeSerializeEntityNum := h.length ▸ lost_subset s
  constructor
  · intro hn
    have hle : (Set.Iio serverDeSerializeEntityNum).ncard ≤ s.lost.ncard := by
      rw [hcard, h.count, hn]
    have hset := Set.eq_of_subset_of_ncard_le hsub hle (Set.finite_Iio _)
    exact fun i hi => hset.ge hi
  · intro hall
    rw [← h.count, hsub.antisymm hall, hcard]

lemma objects_kept {a : Action} (hs : Transition s a t) (hacq : s.epoll.acquiring = none) :
    t.objects = s.objects := by
  cases hs with
  | epoll hs =>
    cases hs with
    | deSerialize hpc | raise hpc =>
      rw [hpc] at hacq
      cases hacq
    | refuse | accept | addClient | find | findNone | wouldBlock | eof | removeClient | read
    | acquireEntity | pushMsg => rfl
  | loop hs => cases hs <;> rfl
  | send hs => cases hs <;> rfl

lemma Bookkeeping.idle (h : Bookkeeping s n)
    (hall : ∀ i < serverDeSerializeEntityNum, Lost s i) : s.epoll.acquiring = none := by
  cases hpc : s.epoll with
  | acquired c b d i =>
    obtain ⟨⟨m, hm⟩, _⟩ := h.owned.acquired c b d i hpc
    have hi := (List.getElem?_eq_some_iff.mp hm).1
    exact absurd (by rw [hpc]; rfl) (hall i (h.length ▸ hi)).unacquired
  | polling | accepted | found | closed | received | deSerialized => rfl

/-- Each step that loses a message takes one of the 1024 entities away for good, and no other step
does. After the last of them the server decodes nothing more. -/
theorem losses_counted {E : SerializeEntity}
    (h : Observed step countLoss GivesBackLast (State.init E, 0) (s, n)) :
    s.lost.ncard = n ∧ (∀ t, Reaches step GivesBackLast s t → s.lost ⊆ t.lost) ∧
    (s.held = [] → s.epoll.acquiring = none →
      (s.entities.acquireEntity = none ↔ n = serverDeSerializeEntityNum)) ∧
    (n = serverDeSerializeEntityNum → ∀ t, Reaches step GivesBackLast s t →
      t.entities.acquireEntity = none ∧ t.objects = s.objects) := by
  have hs : Bookkeeping s n := by
    refine Reaches.invariant (I := fun x => Bookkeeping x.1 x.2) h (bookkeeping_init E) ?_
    rintro x a y hx hc ha
    obtain ⟨hstep, hrecord⟩ := observe_some ha
    rw [hrecord]
    exact hx.step hc (transition_of_step hstep)
  refine ⟨hs.count, fun t ht => ?_, fun hheld hacq => ?_, fun hn t ht => ?_⟩
  · have hinv : Owned t ∧ s.lost ⊆ t.lost := by
      refine ht.invariant (I := fun t => Owned t ∧ s.lost ⊆ t.lost)
        ⟨hs.owned, subset_rfl⟩ ?_
      rintro u a v ⟨hu, hsub⟩ hc ha
      have hst := transition_of_step ha
      exact ⟨hu.step hc hst, hsub.trans (lostIn_step hu hc hst).mono⟩
    exact hinv.2
  · rw [acquireEntity_none, hs.all_lost, hs.length]
    refine forall₂_congr fun i _ => ⟨?_, Lost.occupied⟩
    rintro ⟨m, hm⟩
    exact lost_of_occupied hheld hacq hm
  · have hinv : (∃ m, Bookkeeping t m) ∧ (∀ i < serverDeSerializeEntityNum, Lost t i) ∧
        t.objects = s.objects := by
      refine ht.invariant (I := fun t => (∃ m, Bookkeeping t m) ∧
        (∀ i < serverDeSerializeEntityNum, Lost t i) ∧ t.objects = s.objects)
        ⟨⟨n, hs⟩, hs.all_lost.mp hn, rfl⟩ ?_
      rintro u a v ⟨⟨m, hu⟩, hall, ho⟩ hc ha
      have hst := transition_of_step ha
      refine ⟨⟨_, hu.step hc hst⟩, fun i hi => ?_, (objects_kept hst (hu.idle hall)).trans ho⟩
      exact (lostIn_step hu.owned hc hst).mono (hall i hi)
    obtain ⟨⟨m, ht⟩, hall, ho⟩ := hinv
    refine ⟨acquireEntity_none.mpr fun i hi => ?_, ho⟩
    exact (hall i (ht.length ▸ hi)).occupied

/-- A `Dull` message, and a Data message for a client that has not registered. -/
theorem losses_counted_two : ∃ s : State, s.lost.ncard = 2 ∧
    ∀ t, Reaches step GivesBackLast s t → s.lost ⊆ t.lost := by
  have h : (execute (observe step countLoss) (fun x => GivesBackLast x.1)
      (State.init serializer₀, 0) (sendDull ++
        sendFrom client₀ 1 (.data ⟨⟨4, 0⟩, [49], [97], []⟩) (by decide) ++
        [.loop .callBack, .send .popMsg, .send .copyStrings, .send .lockTable])).map Prod.snd
      = some 2 := by
    decide +kernel
  obtain ⟨⟨s, n⟩, hs, rfl⟩ := reaches_of_execute_map h
  obtain ⟨hcount, hkept, _⟩ := losses_counted hs
  exact ⟨s, hcount, hkept⟩

end Counting

end Xty.Server
