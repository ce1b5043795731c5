import Xty.General.Monitor
import Xty.Server.EntityPools

/-! The three condition variables: the event of a thread queue and the pools of the two codecs. -/

namespace Xty.Server

open Xty.General.Monitor Xty.General.Runs
open Xty.Message

namespace ThreadEvent

def produce (events : UInt32) : UInt32 := events + 1

/-- No result means that the thread waits. -/
def consume (events : UInt32) : Option UInt32 := if events = 0 then none else some (events - 1)

lemma consume_some {e f : UInt32} (h : consume e = some f) : f.toNat + 1 = e.toNat := by
  rw [consume] at h
  split_ifs at h with he
  obtain rfl := Option.some.inj h
  have hpos : e.toNat ≠ 0 := fun hz => he (UInt32.toNat_inj.mp hz)
  rw [UInt32.toNat_sub_of_le]
  · change e.toNat - 1 + 1 = e.toNat
    omega
  · exact UInt32.le_iff_toNat_le.mpr (Nat.one_le_iff_ne_zero.mpr hpos)

lemma produce_le (e : UInt32) : (produce e).toNat ≤ e.toNat + 1 := by
  rw [produce, UInt32.toNat_add]
  exact Nat.mod_le _ _

def events : Resource UInt32 Unit Empty where
  units := UInt32.toNat
  take := consume
  give e _ := produce e
  alter e _ := e
  take_none e h := by
    rw [consume] at h
    split_ifs at h with he
    rw [he]
    rfl
  take_some _ _ h := consume_some h
  give_le e _ := produce_le e
  alter_eq _ _ := rfl

end ThreadEvent

section Counting

variable {ε : Type} {f : ε → Bool} {g : ε → ε} {A : List ε} {i : ℕ}

def free (f : ε → Bool) (A : List ε) : ℕ := A.countP fun E => f E = false

lemma free_add (f : ε → Bool) (A : List ε) : free f A + A.countP f = A.length := by
  rw [free, List.length_eq_countP_add_countP f, Nat.add_comm]
  congr 2
  funext E
  cases f E <;> rfl

lemma free_first (hi : A.findIdx? (fun E => f E = false) = some i) (hg : ∀ E, f (g E) = true) :
    free f (A.modify i g) + 1 = free f A := by
  have hlength := free_add f (A.modify i g)
  have hcount := countP_modify_of_first hi hg
  have hold := free_add f A
  rw [List.length_modify] at hlength
  omega

lemma free_none (h : A.findIdx? (fun E => f E = false) = none) : free f A = 0 := by
  rw [free, List.countP_eq_zero]
  exact fun E hE => by simpa using List.findIdx?_eq_none_iff.mp h E hE

lemma free_modify_le (f : ε → Bool) (g : ε → ε) (A : List ε) (i : ℕ) :
    free f (A.modify i g) ≤ free f A + 1 := by
  induction A generalizing i with
  | nil => simp
  | cons E A ih =>
    cases i with
    | zero =>
      simp only [free, List.modify_zero_cons, List.countP_cons]
      split_ifs <;> omega
    | succ i =>
      have h := ih i
      simp only [free, List.modify_succ_cons, List.countP_cons] at h ⊢
      omega

end Counting

namespace SerializeEntityArray

def releaseEntity (A : SerializeEntityArray) (p : ℕ) : SerializeEntityArray :=
  match A.findIdx? fun E => E.serializeBuf = p with
  | some i => A.modify i fun E => { E with isOccupied := false }
  | none => A

def entities : Resource SerializeEntityArray ℕ Empty where
  units := free SerializeEntity.isOccupied
  take A := A.acquireEntity.map Prod.snd
  give := releaseEntity
  alter A _ := A
  take_none A h := by
    rw [Option.map_eq_none_iff, acquireEntity, Option.map_eq_none_iff] at h
    exact free_none h
  take_some A B h := by
    obtain ⟨⟨i, _⟩, hacq, rfl⟩ := Option.map_eq_some_iff.mp h
    obtain ⟨k, hk, hki⟩ := Option.map_eq_some_iff.mp hacq
    cases hki
    exact free_first hk fun _ => rfl
  give_le A p := by
    rw [releaseEntity]
    split
    · exact free_modify_le _ _ _ _
    · exact Nat.le_succ _
  alter_eq _ _ := rfl

end SerializeEntityArray

namespace EntityArray

-- A thread that has acquired an entity puts its new message there.
def entities : Resource EntityArray ℕ (ℕ × ℕ) where
  units := free DeSerializeEntity.isOccupied
  take A := A.acquireEntity.map Prod.snd
  give := releaseEntity
  alter A x := A.hold x.1 x.2
  take_none A h := by
    rw [Option.map_eq_none_iff, acquireEntity, Option.map_eq_none_iff] at h
    exact free_none h
  take_some A B h := by
    obtain ⟨⟨i, _⟩, hacq, rfl⟩ := Option.map_eq_some_iff.mp h
    obtain ⟨k, hk, hki⟩ := Option.map_eq_some_iff.mp hacq
    cases hki
    exact free_first hk fun _ => rfl
  give_le A p := by
    rw [releaseEntity]
    split
    · exact free_modify_le _ _ _ _
    · exact Nat.le_succ _
  alter_eq A x := countP_modify_of_same fun _ => rfl

end EntityArray

section WakeUps

variable {ι : Type} [Fintype ι] [DecidableEq ι]

/-- The threads are the producers and consumers of an event, or those that acquire and release
the entities of a pool, which may be of any size and in any state at the beginning. -/
theorem no_wakeup_lost :
    (∀ (e : UInt32) (s : MonitorState ι UInt32),
      Reaches ThreadEvent.events.step Free (MonitorState.init e) s →
        ThreadEvent.events.NoneLost s) ∧
    (∀ (A : SerializeEntityArray) (s : MonitorState ι SerializeEntityArray),
      Reaches SerializeEntityArray.entities.step Free (MonitorState.init A) s →
        SerializeEntityArray.entities.NoneLost s) ∧
    ∀ (A : EntityArray) (s : MonitorState ι EntityArray),
      Reaches EntityArray.entities.step Free (MonitorState.init A) s →
        EntityArray.entities.NoneLost s :=
  ⟨fun _ _ => noneLost_of_reaches, fun _ _ => noneLost_of_reaches, fun _ _ => noneLost_of_reaches⟩

theorem no_wakeup_lost_asleep :
    (∃ s : MonitorState (Fin 2) UInt32,
      Reaches ThreadEvent.events.step Free (MonitorState.init 0) s ∧
        s.pc = ![.given, .asleep] ∧ ThreadEvent.events.NoneLost s) ∧
    (∃ s : MonitorState (Fin 2) SerializeEntityArray,
      Reaches SerializeEntityArray.entities.step Free
          (MonitorState.init [⟨8192, true, by decide⟩]) s ∧
        s.pc = ![.given, .asleep] ∧ SerializeEntityArray.entities.NoneLost s) ∧
    ∃ s : MonitorState (Fin 2) EntityArray,
      Reaches EntityArray.entities.step Free (MonitorState.init [⟨some 5, true⟩]) s ∧
        s.pc = ![.given, .asleep] ∧ EntityArray.entities.NoneLost s := by
  refine ⟨?_, ?_, ?_⟩
  · have h : (execute ThreadEvent.events.step Free
        (MonitorState.init 0 : MonitorState (Fin 2) UInt32)
        [.beginTake 1, .test 1, .beginGive 0, .give 0 ()]).map MonitorState.pc
          = some ![.given, .asleep] := by decide
    obtain ⟨s, hs, hpc⟩ := reaches_of_execute_map h
    exact ⟨s, hs, hpc, no_wakeup_lost.1 0 s hs⟩
  · have h : (execute SerializeEntityArray.entities.step Free
        (MonitorState.init [⟨8192, true, by decide⟩] : MonitorState (Fin 2) SerializeEntityArray)
        [.beginTake 1, .test 1, .beginGive 0, .give 0 8192]).map MonitorState.pc
          = some ![.given, .asleep] := by decide
    obtain ⟨s, hs, hpc⟩ := reaches_of_execute_map h
    exact ⟨s, hs, hpc, no_wakeup_lost.2.1 _ s hs⟩
  · have h : (execute EntityArray.entities.step Free
        (MonitorState.init [⟨some 5, true⟩] : MonitorState (Fin 2) EntityArray)
        [.beginTake 1, .test 1, .beginGive 0, .give 0 5]).map MonitorState.pc
          = some ![.given, .asleep] := by decide
    obtain ⟨s, hs, hpc⟩ := reaches_of_execute_map h
    exact ⟨s, hs, hpc, no_wakeup_lost.2.2 _ s hs⟩

end WakeUps

end Xty.Server
