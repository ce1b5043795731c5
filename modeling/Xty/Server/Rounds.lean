import Xty.Server.ActiveClients
import Xty.Server.DataOrder
import Xty.Server.Delivery
import Xty.Server.Dispatch
import Xty.Server.Sockets

/-! The rounds that the send job makes, one for each message that it pops. -/

namespace Xty.Server

open Xty.General.SortedTable Xty.General.LittleEndian
open Xty.Message

/-- What the client with the key `k` has got of the messages popped: those before the message of the
round, or also this one if the round is past the client. -/
def SendPc.Serves (k : Bytes) (popped taken : List Reference) : SendPc → Prop
  | .waiting => taken.Sublist popped
  | .popped r | .copied r _ _ => ∃ pre, popped = pre ++ [r] ∧ taken.Sublist pre
  | .iterating r _ _ rest | .releasing r _ _ rest =>
    (rest.map Prod.fst).Nodup ∧ ∃ pre, popped = pre ++ [r] ∧
      (taken.Sublist pre ∨ taken.Sublist popped ∧ k ∉ rest.map Prod.fst)

section Rounds

variable {k toIP toName : Bytes} {popped taken : List Reference} {r : Reference} {s t : State}
  {g : DataLog}

lemma SendPc.Serves.sublist {pc : SendPc} (h : pc.Serves k popped taken) :
    taken.Sublist popped := by
  cases pc with
  | waiting => exact h
  | popped r | copied r =>
    obtain ⟨pre, rfl, ht⟩ := h
    exact ht.trans (List.sublist_append_left _ _)
  | iterating r | releasing r =>
    obtain ⟨_, pre, rfl, ht | ⟨ht, _⟩⟩ := h
    · exact ht.trans (List.sublist_append_left _ _)
    · exact ht

lemma SendPc.Serves.advance {kv : Bytes × Option ClientEntity}
    {rest : List (Bytes × Option ClientEntity)}
    (h : (SendPc.iterating r toIP toName (kv :: rest)).Serves k popped taken) :
    (SendPc.iterating r toIP toName rest).Serves k popped taken := by
  obtain ⟨hd, pre, hp, ht⟩ := h
  refine ⟨(List.nodup_cons.mp hd).2, pre, hp, ht.imp_right fun ⟨ht, hk⟩ => ⟨ht, fun hmem => ?_⟩⟩
  exact hk (List.mem_cons_of_mem _ hmem)

lemma SendPc.Serves.write {v : Option ClientEntity} {rest : List (Bytes × Option ClientEntity)}
    (h : (SendPc.iterating r toIP toName ((k, v) :: rest)).Serves k popped taken) :
    (SendPc.releasing r toIP toName rest).Serves k popped (taken ++ [r]) := by
  obtain ⟨hd, pre, rfl, ht | ⟨_, hk⟩⟩ := h
  · obtain ⟨hk, hrest⟩ := List.nodup_cons.mp hd
    exact ⟨hrest, pre, rfl, .inr ⟨ht.append_right [r], hk⟩⟩
  · exact absurd List.mem_cons_self hk

lemma SendPc.Serves.step (h : s.send.Serves k g.popped taken) {a : Action}
    (hs : Transition s a t) : t.send.Serves k (DataLog.record s a t g).popped taken := by
  cases hs with
  | epoll hs =>
    have hp : ∀ a, (DataLog.record s (.epoll a) t g).popped = g.popped := by
      intro a
      cases a with
      | pushMsg =>
        rw [DataLog.record]
        split <;> rfl
      | accept | addClient | findFd | wouldBlock | eof | removeClient | read | acquireEntity
      | deSerialize => rfl
    rw [hp]
    cases hs <;> exact h
  | loop hs => cases hs <;> exact h
  | send hs =>
    cases hs with
    | @popMsg r rs hpc hq =>
      rw [hpc] at h
      exact ⟨g.popped, by rw [DataLog.record, hq]; rfl, h⟩
    | copyStrings hpc =>
      rw [hpc] at h
      exact h
    | lockTable hpc =>
      rw [hpc] at h
      obtain ⟨pre, hp, ht⟩ := h
      exact ⟨s.table.keys_nodup, pre, hp, .inl ht⟩
    | unlock hpc =>
      rw [hpc] at h
      exact h.sublist
    | skip hpc =>
      rw [hpc] at h
      exact h.advance
    | write hpc =>
      rw [hpc] at h
      exact h.advance
    | release hpc =>
      rw [hpc] at h
      exact h

/-- What holds whenever the send job gives each message back with the last client. -/
structure InTurn (s : State) (g : DataLog) : Prop where
  owned : Owned s
  ordered : Ordered s g
  tracked : Tracked s
  classed : Classed s
  visiting : ∀ kv ∈ s.send.rest, kv ∈ s.table.entries

lemma visiting_step (h : ∀ kv ∈ s.send.rest, kv ∈ s.table.entries) {a : Action}
    (hs : Transition s a t) : ∀ kv ∈ t.send.rest, kv ∈ t.table.entries := by
  have unlocked : s.send.locksTable = false →
      ∀ kv ∈ s.send.rest, ∀ T : ClientTable, kv ∈ T.entries := by
    intro hlock kv hkv
    rw [SendPc.rest_unlocked hlock] at hkv
    cases hkv
  cases hs with
  | epoll hs =>
    cases hs with
    | addClient _ hlock | removeClient _ hlock => exact fun kv hkv => unlocked hlock kv hkv _
    | refuse | accept | find | findNone | wouldBlock | eof | read | acquireEntity | deSerialize
    | raise | pushMsg => exact h
  | loop hs =>
    cases hs with
    | reg _ _ _ hlock | deReg _ _ _ hlock => exact fun kv hkv => unlocked hlock kv hkv _
    | getMsg | drop | data | release => exact h
  | send hs =>
    cases hs with
    | popMsg | copyStrings | unlock => exact nofun
    | lockTable => exact fun kv hkv => hkv
    | skip hpc | write hpc =>
      rw [hpc] at h
      exact fun kv hkv => h kv (List.mem_cons_of_mem _ hkv)
    | release hpc =>
      rw [hpc] at h
      exact h

lemma inTurn_init (E : SerializeEntity) : InTurn (State.init E) ⟨[], []⟩ :=
  ⟨owned_init E, ordered_init E, tracked_init E, classed_init E, nofun⟩

lemma InTurn.step (h : InTurn s g) {a : Action} (hc : GivesBackLast s a) (hs : Transition s a t) :
    InTurn t (DataLog.record s a t g) :=
  ⟨h.owned.step hc hs, h.ordered.step (h.owned.byValue a) hs, h.tracked.step hs,
    h.classed.step (h.owned.byValue a) hs, visiting_step h.visiting hs⟩

lemma Tracked.key_of_fd (h : Tracked s) {fd : ℕ} (hb : Bound s.table k fd) {c : Connection}
    (hc : c ∈ s.connections) (hfd : c.fd = fd) : c.clientIPPort = k := by
  obtain ⟨d, hd, rfl, hdf⟩ := (h.bound k fd).mp hb
  by_contra hne
  have hcd : c ≠ d := by
    rintro rfl
    exact hne rfl
  have hall : ∃ l : List Connection, l.Pairwise Differ ∧ c ∈ l ∧ d ∈ l := by
    cases hpc : s.epoll with
    | accepted c' b =>
      rw [State.known, hpc] at hd
      exact ⟨_, h.open_differ, hc, List.mem_of_mem_erase hd⟩
    | polling | found | closed | received | acquired | deSerialized =>
      refine ⟨_, h.known_differ, ?_, hd⟩
      simp [State.known, hpc, hc]
  obtain ⟨l, hl, hcl, hdl⟩ := hall
  exact (hl.forall hcl hdl hcd).1 (hfd.trans hdf.symm)

lemma InTurn.sending (h : InTurn s g) {a : Action} {fd : ℕ} {data : Bytes}
    (hs : s.sending a = some ((k, fd), data)) : a = .send .next ∧ Bound s.table k fd ∧
      ∃ r toIP toName e rest d, s.send = .iterating r toIP toName ((k, some e) :: rest) ∧
        s.value r = some (.data d) ∧ e.Matches toIP toName ∧
          data = (MsgObject.data d).encoding := by
  unfold State.sending at hs
  split at hs
  · split at hs
    · next r toIP toName k' e rest hpc =>
      split_ifs at hs with hmatch
      obtain ⟨cell, hcell, he⟩ := Option.map_eq_some_iff.mp hs
      cases he
      have hmem : (k, some e) ∈ s.table.entries := h.visiting _ (by rw [hpc]; exact .head _)
      have hcarried : r ∈ s.send.carried := by
        rw [hpc]
        exact List.mem_singleton.mpr rfl
      have hden : Denotes s r :=
        h.owned.byValue (.send .next) r (by rw [hpc, held_iterating_match hmatch]; exact .head _)
      obtain ⟨d, hd⟩ := h.classed.sent r (List.mem_append_right _ hcarried)
      obtain ⟨m, hm, hobj⟩ := h.classed.remembered.read hden hcell
      obtain rfl := Option.some.inj (hm.symm.trans hd)
      refine ⟨rfl, ⟨e, Table.lookup_eq_some.mpr hmem, rfl⟩, r, toIP, toName, e, rest, d, hpc, hd,
        hmatch, ?_⟩
      rcases hobj with hobj | hobj
      · rw [hobj]
      · rw [hobj]
        exact MsgObject.encoding_measured _
    · cases hs
  · cases hs

end Rounds

end Xty.Server
