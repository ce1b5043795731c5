import Xty.Map.Iterator
import Xty.Server.ActiveClients
import Xty.Server.Accounting

/-! `m_ActiveClientTable` as it is in memory: a map of pointers to the entities of the clients. -/

namespace Xty.Server

open Xty.General.Programs Xty.General.RedBlack Xty.General.Runs Xty.General.SortedTable
open Xty.General.LittleEndian
open Xty.Message Xty.RbTree Xty.Map

structure TableMemory where
  map : LinkedTree (MapNode Bytes (Option ℕ))
  clients : ℕ → Option ClientEntity

abbrev TableProgram (α : Type) := Program TableMemory α

inductive DumpLine where
  | currentActiveClient (n : UInt64)
  | networkAddress (k : Bytes)
  | client (fd : ℕ) (processName : Bytes)
deriving DecidableEq, Repr

namespace TableMemory

section Operations

variable {α : Type}

def create : TableMemory := ⟨RbTree.create, fun _ => none⟩

def onMap (m : MapProgram Bytes (Option ℕ) α) : TableProgram α := fun M =>
  (m M.map).map fun r => (r.1, { M with map := r.2 })

def getClient (k : Bytes) : TableProgram (Option ℕ) := onMap do getValue (← index k)

def setClient (k : Bytes) (p : Option ℕ) : TableProgram Unit := onMap do setValue (← index k) p

def newEntity (q : ℕ) (e : ClientEntity) : TableProgram Unit := fun M =>
  if (M.clients q).isSome then none
  else some ((), { M with clients := Function.update M.clients q (some e) })

-- Whoever follows a pointer to an entity that has been deleted yields nothing.
def readEntity (q : ℕ) : TableProgram ClientEntity := fun M => (M.clients q).map fun e => (e, M)

def writeEntity (q : ℕ) (e : ClientEntity) : TableProgram Unit := fun M =>
  (M.clients q).map fun _ => ((), { M with clients := Function.update M.clients q (some e) })

def deleteEntity : Option ℕ → TableProgram Unit
  | none => return ()
  | some q => fun M =>
    (M.clients q).map fun _ => ((), { M with clients := Function.update M.clients q none })

def addUser (k : Bytes) (q fd : ℕ) (b : RecvBuffer) : TableProgram Unit := do
  newEntity q (.create fd b)
  setClient k (some q)

def removeUser (k : Bytes) : TableProgram Unit := do
  deleteEntity (← getClient k)
  setClient k none
  onMap (deleteKey k)

/-- `m_ActiveClientTable[k]->member = value`. -/
def writeUser (k : Bytes) (f : ClientEntity → ClientEntity) : TableProgram Unit := do
  match ← getClient k with
  | some q => writeEntity q (f (← readEntity q))
  | none => fun _ => none

def writeInfo (k name ip port : Bytes) : TableProgram Unit := do
  if (← getClient k).isSome then do
    writeUser k fun e => { e with clientName := name }
    writeUser k fun e => { e with clientIP := ip }
    writeUser k fun e => { e with clientPort := port }
  else return ()

def handleRegMsg (m : RegMsg) : TableProgram Unit :=
  writeInfo (RegMsg.userIPPort m) m.processName m.processIP m.processPort

def handleDeRegMsg (m : DeRegMsg) : TableProgram Unit :=
  writeInfo (DeRegMsg.userIPPort m) logOutText logOutText logOutText

/-- `for (Iter = Iter.Begin(); Iter != Iter.End(); ++Iter)`, where the body may break. -/
def scan (body : α → MapNode Bytes (Option ℕ) → TableProgram (α × Bool)) :
    ℕ → α → Ptr → TableProgram α
  | 0, _, _ => fun _ => none
  | fuel + 1, a, p => do
    if p = (← onMap Map.iterator.iterEnd) then return a
    else do
      let r ← body a (← onMap (getData p))
      if r.2 then return r.1
      else scan body fuel r.1 (← onMap (Map.iterator.increment p))

def forEach (body : α → MapNode Bytes (Option ℕ) → TableProgram (α × Bool)) (a : α) :
    TableProgram α := do
  scan body (← onMap nodeBound) a (← onMap Map.iterator.iterBegin)

def findFd (fd : ℕ) : TableProgram (Option (Bytes × ClientEntity)) :=
  forEach (fun found n => do
    match n.value with
    | some q =>
      let e ← readEntity q
      if e.clientFd = fd then return (some (n.key, e), true) else return (found, false)
    | none => return (found, false)) none

def visitClients : TableProgram (List (Bytes × Option ClientEntity)) :=
  forEach (fun seen n => do
    match n.value with
    | some q => return (seen ++ [(n.key, some (← readEntity q))], false)
    | none => return (seen ++ [(n.key, none)], false)) []

def dumpActiveClientInfo : TableProgram (List DumpLine) := do
  forEach (fun lines n => do
    match n.value with
    | some q =>
      let e ← readEntity q
      return (lines ++ [.networkAddress n.key, .client e.clientFd e.clientName], false)
    | none => return (lines ++ [.networkAddress n.key], false))
    [.currentActiveClient (← onMap Map.size)]

/-- The pointer under a key, which is not added when it is not there. -/
def pointerOf (k : Bytes) : TableProgram (Option (Option ℕ)) := onMap do
  let mapNode ← searchKey k
  if mapNode ≠ .null then return some (← getValue mapNode) else return none

end Operations

/-- The entities that there are belong to one key each. -/
structure Shows (M : TableMemory) (L : Binding Bytes (Option ClientEntity)) (c : ColorTree ℕ)
    (f : Binding Bytes (Option ℕ)) : Prop where
  binds : Binds M.map c f
  shown : ∀ k, L k = (f k).map fun p => p.bind M.clients
  live : ∀ k q, f k = some (some q) → M.clients q ≠ none
  distinct : ∀ k k' q, f k = some (some q) → f k' = some (some q) → k = k'
  kept : ∀ q, M.clients q ≠ none → ∃ k, f k = some (some q)

section Specs

variable {M : TableMemory} {L : Binding Bytes (Option ClientEntity)} {c : ColorTree ℕ}
  {f : Binding Bytes (Option ℕ)} {k : Bytes} {q : ℕ} {e : ClientEntity} {α : Type}

lemma create_shows : Shows create (fun _ => none) .leaf fun _ => none :=
  ⟨create_binds, fun _ => rfl, nofun, nofun, fun _ h => absurd rfl h⟩

lemma onMap_yields {m : MapProgram Bytes (Option ℕ) α}
    {Q : α → LinkedTree (MapNode Bytes (Option ℕ)) → Prop} (h : Yields m M.map Q) :
    Yields (onMap m) M fun a M' => Q a M'.map ∧ M'.clients = M.clients := by
  obtain ⟨a, t, hm, hQ⟩ := h
  refine ⟨a, { M with map := t }, ?_, hQ, rfl⟩
  rw [onMap, hm]
  rfl

lemma onMap_run {m : MapProgram Bytes (Option ℕ) α} {a : α} (h : m M.map = some (a, M.map)) :
    onMap m M = some (a, M) := by
  rw [onMap, h]
  rfl

/-- The pointer under `k` changes; an entity that it led to is gone, and one that it leads to is
there for it alone. -/
lemma Shows.replace {M' : TableMemory} {c' : ColorTree ℕ} {v : Option (Option ℕ)}
    (h : Shows M L c f) (hb : Binds M'.map c' (Function.update f k v))
    (hsame : ∀ q, (f k).join ≠ some q → v.join ≠ some q → M'.clients q = M.clients q)
    (hold : ∀ q, (f k).join = some q → v.join ≠ some q → M'.clients q = none)
    (hnew : ∀ q, v.join = some q →
      M'.clients q ≠ none ∧ ((f k).join = some q ∨ M.clients q = none)) :
    Shows M' (Function.update L k (v.map fun p => p.bind M'.clients)) c'
      (Function.update f k v) := by
  have hother : ∀ k' q, k' ≠ k → f k' = some (some q) →
      v.join ≠ some q ∧ M'.clients q = M.clients q := by
    intro k' q hk hq
    have hf : (f k).join ≠ some q := fun hf =>
      hk (h.distinct k' k q hq (Option.join_eq_some_iff.mp hf))
    have hv : v.join ≠ some q := by
      intro hv
      rcases (hnew q hv).2 with hf' | hc
      · exact hf hf'
      · exact h.live k' q hq hc
    exact ⟨hv, hsame q hf hv⟩
  refine ⟨hb, fun k' => ?_, fun k' q hq => ?_, fun k₁ k₂ q h₁ h₂ => ?_, fun q hq => ?_⟩
  · by_cases hk : k' = k
    · subst hk
      simp
    · rw [Function.update_of_ne hk, Function.update_of_ne hk, h.shown]
      cases hf : f k' with
      | none => rfl
      | some p =>
        cases p with
        | none => rfl
        | some q => simp [(hother k' q hk hf).2]
  · by_cases hk : k' = k
    · subst hk
      rw [Function.update_self] at hq
      exact (hnew q (Option.join_eq_some_iff.mpr hq)).1
    · rw [Function.update_of_ne hk] at hq
      rw [(hother k' q hk hq).2]
      exact h.live k' q hq
  · rw [Function.update_apply] at h₁ h₂
    split_ifs at h₁ h₂ with hk₁ hk₂ hk₂
    · exact hk₁.trans hk₂.symm
    · exact absurd (Option.join_eq_some_iff.mpr h₁) (hother k₂ q hk₂ h₂).1
    · exact absurd (Option.join_eq_some_iff.mpr h₂) (hother k₁ q hk₁ h₁).1
    · exact h.distinct k₁ k₂ q h₁ h₂
  · by_cases hv : v.join = some q
    · exact ⟨k, by rw [Function.update_self]; exact Option.join_eq_some_iff.mp hv⟩
    · have hf : (f k).join ≠ some q := fun hf => hq (hold q hf hv)
      rw [hsame q hf hv] at hq
      obtain ⟨k', hk'⟩ := h.kept q hq
      have hk : k' ≠ k := by
        rintro rfl
        exact hf (Option.join_eq_some_iff.mpr hk')
      exact ⟨k', by rwa [Function.update_of_ne hk]⟩

lemma Shows.pointer (h : Shows M L c f) (k : Bytes) :
    ((f k).join).bind M.clients = (L k).join := by
  rw [h.shown]
  rcases f k with _ | _ | q <;> rfl

lemma getClient_spec (h : Shows M L c f) (k : Bytes) :
    Yields (getClient k) M fun p M' => p.bind M.clients = (L k).join ∧
      p.isSome = (L k).join.isSome ∧ M'.clients = M.clients ∧
      ∃ c' f', Shows M' (Function.update L k (some (L k).join)) c' f' ∧ f' k = some p := by
  have hmap : Yields (do getValue (← index k)) M.map fun p t => p = (f k).getD none ∧
      ∃ c', Binds t c' (Function.update f k (some ((f k).getD none))) := by
    apply (index_spec h.binds k).bind
    rintro p t ⟨c', hb, hp⟩
    exact Yields.of_eq (getValue_run hb hp) ⟨rfl, c', hb⟩
  apply (onMap_yields hmap).mono
  rintro p M' ⟨⟨rfl, c', hb⟩, hc⟩
  have hjoin : (f k).getD none = (f k).join := by
    cases f k <;> rfl
  rw [hjoin] at hb ⊢
  have hsome : (f k).join.isSome = (L k).join.isSome := by
    rw [← h.pointer]
    cases hp : (f k).join with
    | none => rfl
    | some q =>
      obtain ⟨e, he⟩ := Option.ne_none_iff_exists'.mp (h.live k q (Option.join_eq_some_iff.mp hp))
      simp [he]
  refine ⟨h.pointer k, hsome, hc, c', Function.update f k (some (f k).join), ?_,
    Function.update_self ..⟩
  rw [← h.pointer k, ← hc]
  apply h.replace hb
  · intro q _ _
    rw [hc]
  · exact fun q hq hne => absurd hq hne
  · intro q hq
    rw [hc]
    exact ⟨h.live k q (Option.join_eq_some_iff.mp hq), .inl hq⟩

lemma setClient_spec (h : Binds M.map c f) (k : Bytes) (p : Option ℕ) :
    Yields (setClient k p) M fun _ M' => M'.clients = M.clients ∧
      ∃ c', Binds M'.map c' (Function.update f k (some p)) := by
  have hmap : Yields (do setValue (← index k) p) M.map fun _ t =>
      ∃ c', Binds t c' (Function.update f k (some p)) := by
    apply (index_spec h k).bind
    rintro r t ⟨c', hb, hr⟩
    apply (setValue_spec hb hr p).mono
    rintro _ t' ⟨hb', _⟩
    rw [Function.update_idem] at hb'
    exact ⟨c', hb'⟩
  apply (onMap_yields hmap).mono
  rintro _ M' ⟨hb, hc⟩
  exact ⟨hc, hb⟩

lemma addUser_spec (h : Shows M L c f) (hk : (L k).join = none) (hq : M.clients q = none) (fd : ℕ)
    (b : RecvBuffer) :
    Yields (addUser k q fd b) M fun _ M' =>
      ∃ c' f', Shows M' (Function.update L k (some (some (.create fd b)))) c' f' := by
  have hf : (f k).join = none := by
    cases hp : (f k).join with
    | none => rfl
    | some q' =>
      have hlive := h.live k q' (Option.join_eq_some_iff.mp hp)
      rw [← h.pointer, hp] at hk
      exact absurd hk hlive
  have hnew : newEntity q (.create fd b) M = some ((), { M with
      clients := Function.update M.clients q (some (.create fd b)) }) := by
    rw [newEntity, hq]
    rfl
  apply Yields.step hnew
  have hb : Binds (TableMemory.map { M with
      clients := Function.update M.clients q (some (.create fd b)) }) c f := h.binds
  apply (setClient_spec hb k (some q)).mono
  rintro _ M' ⟨hc, c', hb'⟩
  have hcq : M'.clients q = some (.create fd b) := by
    rw [hc]
    exact Function.update_self ..
  have hshows := h.replace hb' ?_ ?_ ?_
  · rw [Option.map_some, Option.bind_some, hcq] at hshows
    exact ⟨c', _, hshows⟩
  · intro q' _ hne
    rw [hc]
    exact Function.update_of_ne (fun he => hne (by rw [he]; rfl)) _ _
  · intro q' hp
    rw [hf] at hp
    cases hp
  · rintro q' ⟨⟩
    exact ⟨by simp [hcq], .inr hq⟩

lemma removeUser_spec (h : Shows M L c f) (k : Bytes) :
    Yields (removeUser k) M fun _ M' => ∃ c' f', Shows M' (Function.update L k none) c' f' := by
  apply (getClient_spec h k).bind
  rintro p M₁ ⟨_, _, hc₁, c₁, f₁, h₁, hp⟩
  have hdelete : Yields (deleteEntity p) M₁ fun _ M' => M'.map = M₁.map ∧
      (∀ q, p ≠ some q → M'.clients q = M₁.clients q) ∧ ∀ q, p = some q → M'.clients q = none := by
    cases p with
    | none => exact Yields.pure ⟨rfl, fun _ _ => rfl, nofun⟩
    | some q =>
      obtain ⟨e, he⟩ := Option.ne_none_iff_exists'.mp (h₁.live k q hp)
      have hrun : deleteEntity (some q) M₁ = some ((), { M₁ with
          clients := Function.update M₁.clients q none }) := by
        simp [deleteEntity, he]
      refine Yields.of_eq hrun ⟨rfl, fun q' hne => ?_, ?_⟩
      · exact Function.update_of_ne (fun hq => hne (by rw [hq])) _ _
      · rintro _ ⟨⟩
        exact Function.update_self ..
  apply hdelete.bind
  rintro _ M₂ ⟨hmap, hsame, hgone⟩
  have hb₂ : Binds M₂.map c₁ f₁ := hmap ▸ h₁.binds
  apply (setClient_spec hb₂ k none).bind
  rintro _ M₃ ⟨hc₃, c₃, hb₃⟩
  apply (onMap_yields (deleteKey_spec hb₃ k)).mono
  rintro _ M₄ ⟨⟨c₄, hb₄⟩, hc₄⟩
  rw [Function.update_idem] at hb₄
  have hshows := h₁.replace hb₄ ?_ ?_ nofun
  · rw [Function.update_idem] at hshows
    exact ⟨c₄, _, hshows⟩
  · intro q hq _
    rw [hp] at hq
    rw [hc₄, hc₃]
    exact hsame q hq
  · intro q hq _
    rw [hp] at hq
    rw [hc₄, hc₃]
    exact hgone q hq

lemma writeUser_spec (h : Shows M L c f) (he : L k = some (some e))
    (g : ClientEntity → ClientEntity) :
    Yields (writeUser k g) M fun _ M' =>
      ∃ c' f', Shows M' (Function.update L k (some (some (g e)))) c' f' := by
  apply (getClient_spec h k).bind
  rintro p M₁ ⟨hbind, _, hc₁, c₁, f₁, h₁, hp⟩
  rw [he] at hbind
  obtain ⟨q, rfl, hq⟩ := Option.bind_eq_some_iff.mp hbind
  rw [← hc₁] at hq
  have hread : readEntity q M₁ = some (e, M₁) := by
    rw [readEntity, hq]
    rfl
  have hwrite : writeEntity q (g e) M₁ = some ((), { M₁ with
      clients := Function.update M₁.clients q (some (g e)) }) := by
    rw [writeEntity, hq]
    rfl
  apply Yields.step hread
  refine Yields.of_eq hwrite ⟨c₁, f₁, ?_⟩
  have hb : Binds (TableMemory.map { M₁ with
      clients := Function.update M₁.clients q (some (g e)) }) c₁
      (Function.update f₁ k (some (some q))) := by
    rw [← hp, Function.update_eq_self]
    exact h₁.binds
  have hshows := h₁.replace hb ?_ ?_ ?_
  · rw [← hp, Function.update_eq_self, Function.update_idem, hp] at hshows
    simpa using hshows
  · intro q' _ hne
    exact Function.update_of_ne (fun hq => hne (by rw [hq]; rfl)) _ _
  · intro q' hq' hne
    rw [hp] at hq'
    exact absurd hq' hne
  · rintro q' ⟨⟩
    refine ⟨by simp, .inl ?_⟩
    rw [hp]
    rfl

lemma writeInfo_spec (h : Shows M L c f) (k name ip port : Bytes) :
    Yields (writeInfo k name ip port) M fun _ M' => ∃ c' f', Shows M' (Function.update L k
      (some ((L k).join.map fun e =>
        { e with clientName := name, clientIP := ip, clientPort := port }))) c' f' := by
  apply (getClient_spec h k).bind
  rintro p M₁ ⟨_, hsome, _, c₁, f₁, h₁, _⟩
  rw [hsome]
  cases he : (L k).join with
  | none =>
    rw [he] at h₁
    exact Yields.pure ⟨c₁, f₁, h₁⟩
  | some e =>
    rw [he] at h₁
    rw [Option.isSome_some, if_pos rfl]
    apply (writeUser_spec h₁ (Function.update_self ..) _).bind
    rintro _ M₂ ⟨c₂, f₂, h₂⟩
    apply (writeUser_spec h₂ (Function.update_self ..) _).bind
    rintro _ M₃ ⟨c₃, f₃, h₃⟩
    apply (writeUser_spec h₃ (Function.update_self ..) _).mono
    rintro _ M₄ ⟨c₄, f₄, h₄⟩
    simp only [Function.update_idem] at h₄
    exact ⟨c₄, f₄, h₄⟩

end Specs

section Scans

variable {M : TableMemory} {T : ClientTable} {c : ColorTree ℕ} {f : Binding Bytes (Option ℕ)}
  {α : Type}

def scanList (g : α → Bytes × Option ClientEntity → α × Bool) (a : α) :
    List (Bytes × Option ClientEntity) → α
  | [] => a
  | x :: l => if (g a x).2 then (g a x).1 else scanList g (g a x).1 l

def entryAt (M : TableMemory) (a : ℕ) : Bytes × Option ClientEntity :=
  ((M.map.data (.node a)).key, (M.map.data (.node a)).value.bind M.clients)

lemma Shows.entries (h : Shows M T.lookup c f) : T.entries = c.inorder.map (entryAt M) := by
  refine T.inOrder.ext ?_ fun ⟨k, v⟩ => ?_
  · exact List.pairwise_map.mpr h.binds.holds.sorted
  · rw [← Table.lookup_eq_some, h.shown, Option.map_eq_some_iff, List.mem_map]
    constructor
    · rintro ⟨p, hp, rfl⟩
      obtain ⟨a, ha, hd⟩ := (h.binds.bound k p).mp hp
      exact ⟨a, ha, by rw [entryAt, hd]⟩
    · rintro ⟨a, ha, he⟩
      obtain ⟨rfl, rfl⟩ := Prod.mk.inj he
      exact ⟨_, h.binds.of_mem ha, rfl⟩

def Reads (M : TableMemory) (f : Binding Bytes (Option ℕ))
    (body : α → MapNode Bytes (Option ℕ) → TableProgram (α × Bool))
    (g : α → Bytes × Option ClientEntity → α × Bool) : Prop :=
  ∀ a k p, f k = some p → body a ⟨k, p⟩ M = some (g a (k, p.bind M.clients), M)

variable {body : α → MapNode Bytes (Option ℕ) → TableProgram (α × Bool)}
  {g : α → Bytes × Option ClientEntity → α × Bool}

lemma scan_run (h : Shows M T.lookup c f) (hbody : Reads M f body g) {x y : List ℕ}
    (hc : c.inorder = x ++ y) {fuel : ℕ} (hfuel : y.length < fuel) (a : α) :
    scan body fuel a (firstPtr y) M = some (scanList g a (y.map (entryAt M)), M) := by
  induction y generalizing x fuel a with
  | nil =>
    cases fuel with
    | zero => simp at hfuel
    | succ fuel =>
      apply Yields.run_eq
      rw [scan]
      apply Yields.step (onMap_run rfl)
      exact Yields.pure ⟨rfl, rfl⟩
  | cons b y ih =>
    cases fuel with
    | zero => simp at hfuel
    | succ fuel =>
      have hb : b ∈ c.inorder := by
        rw [hc]
        simp
      obtain ⟨l, hl⟩ := h.binds.holds.live hb
      have hbind := hbody a _ _ (h.binds.of_mem hb)
      have hmove : Map.iterator.increment (.node b) M.map = some (firstPtr y, M.map) :=
        h.binds.holds.move_run (s := .right) hc
      apply Yields.run_eq
      rw [scan]
      apply Yields.step (onMap_run rfl)
      rw [if_neg (by simp [firstPtr])]
      apply Yields.step (onMap_run (getData_run hl))
      apply Yields.step hbind
      rw [List.map_cons, scanList]
      change Yields (if (g a (entryAt M b)).2 = true then _ else _) M _
      split_ifs
      · exact Yields.pure ⟨rfl, rfl⟩
      · apply Yields.step (onMap_run hmove)
        refine Yields.of_eq (ih (x := x ++ [b]) ?_ (by simpa using hfuel) _) ⟨rfl, rfl⟩
        rw [hc, List.append_assoc, List.singleton_append]

lemma forEach_run (h : Shows M T.lookup c f) (hbody : Reads M f body g) (a : α) :
    forEach body a M = some (scanList g a T.entries, M) := by
  have hstart : Map.iterator.iterBegin M.map = some (firstPtr c.inorder, M.map) :=
    h.binds.holds.start_run (s := .right)
  have hsize : c.inorder.length < M.map.next + 1 := by
    rw [ColorTree.length_inorder]
    exact Nat.lt_succ_of_le h.binds.holds.size_le
  apply Yields.run_eq
  rw [forEach]
  apply Yields.step (onMap_run rfl)
  apply Yields.step (onMap_run hstart)
  rw [h.entries]
  exact Yields.of_eq (scan_run h hbody (x := []) rfl hsize a) ⟨rfl, rfl⟩

lemma scanList_append (r : Bytes × Option ClientEntity → List α) (seen : List α)
    (l : List (Bytes × Option ClientEntity)) :
    scanList (fun seen x => (seen ++ r x, false)) seen l = seen ++ l.flatMap r := by
  induction l generalizing seen with
  | nil => simp [scanList]
  | cons x l ih => simp [scanList, ih]

lemma scanList_find (r : Bytes × Option ClientEntity → Option α)
    (l : List (Bytes × Option ClientEntity)) :
    scanList (fun found x => match r x with
      | some y => (some y, true)
      | none => (found, false)) none l = l.findSome? r := by
  induction l with
  | nil => rfl
  | cons x l ih =>
    rw [scanList, List.findSome?_cons]
    cases r x with
    | none => exact ih
    | some y => rfl

lemma findFd_run (h : Shows M T.lookup c f) (fd : ℕ) :
    findFd fd M = some (T.findFd fd, M) := by
  have hfind := scanList_find (fun x => x.2.bind fun e =>
    if e.clientFd = fd then some (x.1, e) else none) T.entries
  rw [ClientTable.findFd, ← hfind]
  apply forEach_run h
  intro found k p hp
  cases p with
  | none => rfl
  | some q =>
    obtain ⟨e, he⟩ := Option.ne_none_iff_exists'.mp (h.live k q hp)
    apply Yields.run_eq
    apply Yields.step (by rw [readEntity, he]; rfl)
    simp only [Option.bind_some, he]
    split_ifs
    · exact Yields.pure ⟨rfl, rfl⟩
    · exact Yields.pure ⟨rfl, rfl⟩

lemma visitClients_run (h : Shows M T.lookup c f) : visitClients M = some (T.entries, M) := by
  have hall := scanList_append (fun x => [x]) [] T.entries
  rw [List.flatMap_singleton', List.nil_append] at hall
  rw [← hall]
  apply forEach_run h
  intro seen k p hp
  cases p with
  | none => rfl
  | some q =>
    obtain ⟨e, he⟩ := Option.ne_none_iff_exists'.mp (h.live k q hp)
    apply Yields.run_eq
    apply Yields.step (by rw [readEntity, he]; rfl)
    exact Yields.pure ⟨by rw [Option.bind_some, he], rfl⟩

lemma size_run (h : Shows M T.lookup c f) : onMap Map.size M = some (ClientTable.size T, M) := by
  have hl : T.entries.length = c.size := by
    rw [h.entries, List.length_map, ColorTree.length_inorder]
  have hsize : Map.size M.map = some (ClientTable.size T, M.map) := by
    rw [ClientTable.size, hl, ← h.binds.holds.count]
    rfl
  exact onMap_run hsize

lemma pointerOf_run (h : Shows M L c f) (k : Bytes) : pointerOf k M = some (f k, M) := by
  apply onMap_run
  apply Yields.run_eq
  apply (searchKey_spec h.binds k).bind
  rintro p t ⟨rfl, ⟨v, hv, hp⟩ | ⟨hn, rfl⟩⟩
  · rw [if_pos hp.ne_null, hv]
    exact Yields.step (getValue_run h.binds hp) (Yields.pure ⟨rfl, rfl⟩)
  · rw [if_neg fun hne => hne rfl, hn]
    exact Yields.pure ⟨rfl, rfl⟩

def dumpLines (T : ClientTable) : List DumpLine :=
  .currentActiveClient (ClientTable.size T) :: T.entries.flatMap fun x =>
    .networkAddress x.1 :: x.2.toList.map fun e => .client e.clientFd e.clientName

lemma dumpActiveClientInfo_run (h : Shows M T.lookup c f) :
    dumpActiveClientInfo M = some (dumpLines T, M) := by
  have hall := scanList_append (fun x => DumpLine.networkAddress x.1 ::
    x.2.toList.map fun e => .client e.clientFd e.clientName)
    [.currentActiveClient (ClientTable.size T)] T.entries
  apply Yields.run_eq
  rw [dumpActiveClientInfo]
  apply Yields.step (size_run h)
  refine Yields.of_eq ?_ ⟨rfl, rfl⟩
  rw [List.singleton_append] at hall
  rw [dumpLines, ← hall]
  apply forEach_run h
  intro lines k p hp
  cases p with
  | none => rfl
  | some q =>
    obtain ⟨e, he⟩ := Option.ne_none_iff_exists'.mp (h.live k q hp)
    apply Yields.run_eq
    apply Yields.step (by rw [readEntity, he]; rfl)
    exact Yields.pure ⟨by rw [Option.bind_some, he]; rfl, rfl⟩

end Scans

end TableMemory

section Following

open TableMemory

variable {s t : State} {M : TableMemory} {T : ClientTable}

def InMemory (M : TableMemory) (T : ClientTable) : Prop := ∃ c f, Shows M T.lookup c f

lemma InMemory.of_lookup {T' : ClientTable} {L : Binding Bytes (Option ClientEntity)}
    (h : ∃ c f, Shows M L c f) (hL : T'.lookup = L) : InMemory M T' := by
  subst hL
  exact h

/-- What the action does to the table; `q` is where an entity that it makes is put. -/
def follow (s : State) (q : ℕ) : Action → TableProgram Unit
  | .epoll .addClient =>
    match s.epoll with
    | .accepted c b => addUser c.clientIPPort q c.fd b
    | _ => return ()
  | .epoll .removeClient =>
    match s.epoll with
    | .closed _ k => removeUser k
    | _ => return ()
  | .loop .callBack =>
    match s.calls with
    | some (.reg m) => TableMemory.handleRegMsg m
    | some (.deReg m) => TableMemory.handleDeRegMsg m
    | _ => return ()
  | _ => return ()

lemma Tracked.vacant (h : Tracked s) {c : Connection} {b : RecvBuffer}
    (hpc : s.epoll = .accepted c b) : (s.table.lookup c.clientIPPort).join = none := by
  rw [Option.eq_none_iff_forall_ne_some]
  intro e he
  have hmem := h.accepted c b hpc
  have hdiffer := ((List.perm_cons_erase hmem).pairwise_iff fun hcd => Differ.symm hcd).mp
    h.open_differ
  obtain ⟨d, hd, haddr, _⟩ := (h.bound c.clientIPPort e.clientFd).mp
    ⟨e, Option.join_eq_some_iff.mp he, rfl⟩
  rw [State.known, hpc] at hd
  exact ((List.pairwise_cons.mp hdiffer).1 d hd).2 haddr.symm

lemma handled_inMemory (h : InMemory M T) (k name ip port : Bytes) (g : ClientEntity → ClientEntity)
    (hg : ∀ e, g e = { e with clientName := name, clientIP := ip, clientPort := port }) :
    Yields (writeInfo k name ip port) M fun _ M' => InMemory M' (T.writeClient k g) := by
  obtain ⟨c, f, hshows⟩ := h
  apply (writeInfo_spec hshows k name ip port).mono
  rintro _ M' h'
  apply InMemory.of_lookup h'
  have hmap : ((T.lookup k).getD none).map g = (T.lookup k).join.map fun e =>
      { e with clientName := name, clientIP := ip, clientPort := port } := by
    rcases T.lookup k with _ | _ | e
    · rfl
    · rfl
    · exact congrArg some (hg e)
  rw [ClientTable.lookup_writeClient, hmap]

lemma follow_spec {a : Action} {q : ℕ} (ht : Tracked s) (hM : InMemory M s.table)
    (hq : M.clients q = none) (hs : Transition s a t) :
    Yields (follow s q a) M fun _ M' => InMemory M' t.table := by
  cases hs with
  | epoll hs =>
    cases hs with
    | @addClient c b hpc =>
      obtain ⟨c', f, h⟩ := hM
      rw [follow, hpc]
      apply (addUser_spec h (ht.vacant hpc) hq c.fd b).mono
      rintro _ M' h'
      exact InMemory.of_lookup h' (ClientTable.lookup_addClient ..)
    | @removeClient c k hpc =>
      obtain ⟨c', f, h⟩ := hM
      rw [follow, hpc]
      apply (removeUser_spec h k).mono
      rintro _ M' h'
      exact InMemory.of_lookup h' (ClientTable.lookup_removeClient ..)
    | refuse | accept | find | findNone | wouldBlock | eof | read | acquireEntity | deSerialize
    | raise | pushMsg => exact Yields.pure hM
  | loop hs =>
    cases hs with
    | drop hpc hcell hfun hend =>
      rw [follow, calls_eq hpc hcell hfun]
      obtain ⟨rfl, _⟩ | ⟨rfl, _⟩ := hend <;> exact Yields.pure hM
    | reg hpc hcell hfun =>
      rw [follow, calls_eq hpc hcell hfun]
      exact handled_inMemory hM _ _ _ _ _ fun _ => rfl
    | deReg hpc hcell hfun =>
      rw [follow, calls_eq hpc hcell hfun]
      exact handled_inMemory hM _ _ _ _ _ fun _ => rfl
    | data hpc hcell hfun =>
      rw [follow, calls_eq hpc hcell hfun]
      exact Yields.pure hM
    | getMsg | release => exact Yields.pure hM
  | send hs => cases hs <;> exact Yields.pure hM

end Following

section Result

open TableMemory

variable {s : State} {M : TableMemory} {T : ClientTable}

def linkedStep (x : State × TableMemory) (a : Action × ℕ) : Option (State × TableMemory) := do
  let t ← step x.1 a.1
  let r ← follow x.1 a.2 a.1 x.2
  return (t, r.2)

/-- What `new` returns is not the address of an entity that there is. -/
def Allocates (x : State × TableMemory) (a : Action × ℕ) : Prop := x.2.clients a.2 = none

instance (x : State × TableMemory) (a : Action × ℕ) : Decidable (Allocates x a) :=
  decidable_of_iff ((x.2.clients a.2).isNone = true) Option.isNone_iff_eq_none

def Points (M : TableMemory) (k : Bytes) (q : ℕ) : Prop := pointerOf k M = some (some (some q), M)

/-- Whoever goes over the table sees the model's, and each entity stands under one key. -/
structure Realizes (M : TableMemory) (T : ClientTable) : Prop where
  size : onMap Map.size M = some (ClientTable.size T, M)
  findFd : ∀ fd, TableMemory.findFd fd M = some (T.findFd fd, M)
  visit : visitClients M = some (T.entries, M)
  dump : dumpActiveClientInfo M = some (dumpLines T, M)
  entities : ∀ q e, M.clients q = some e → ∃ k, T.lookup k = some (some e)
  searched : ∀ k, ∃ v, pointerOf k M = some (v, M) ∧ T.lookup k = v.map fun p => p.bind M.clients
  live : ∀ k q, Points M k q → M.clients q ≠ none
  distinct : ∀ k k' q, Points M k q → Points M k' q → k = k'
  kept : ∀ q, M.clients q ≠ none → ∃ k, Points M k q

lemma points_iff {c : ColorTree ℕ} {f : Binding Bytes (Option ℕ)}
    (h : Shows M T.lookup c f) {k : Bytes} {q : ℕ} : Points M k q ↔ f k = some (some q) := by
  rw [Points, pointerOf_run h]
  simp

lemma InMemory.realizes (h : InMemory M T) : Realizes M T := by
  obtain ⟨c, f, h⟩ := h
  refine ⟨size_run h, findFd_run h, visitClients_run h, dumpActiveClientInfo_run h, ?_,
    fun k => ⟨f k, pointerOf_run h k, h.shown k⟩, ?_, ?_, ?_⟩
  · intro q e he
    obtain ⟨k, hk⟩ := h.kept q (by simp [he])
    exact ⟨k, by rw [h.shown, hk, Option.map_some, Option.bind_some, he]⟩
  · exact fun k q hk => h.live k q ((points_iff h).mp hk)
  · exact fun k k' q hk hk' => h.distinct k k' q ((points_iff h).mp hk) ((points_iff h).mp hk')
  · intro q hq
    obtain ⟨k, hk⟩ := h.kept q hq
    exact ⟨k, (points_iff h).mpr hk⟩

/-- The red-black tree and the entities on the heap follow the server wherever it goes: no pointer
dangles, no entity is deleted twice or left behind, and whoever goes over the table sees what the
table of the model has, in its order. -/
theorem clients_in_memory {E : SerializeEntity}
    (h : Reaches linkedStep Allocates (State.init E, TableMemory.create) (s, M)) :
    Realizes M s.table ∧ ∀ a t q, step s a = some t → M.clients q = none →
      ∃ M', linkedStep (s, M) (a, q) = some (t, M') := by
  have hinv : Tracked s ∧ InMemory M s.table := by
    refine h.invariant (I := fun x => Tracked x.1 ∧ InMemory x.2 x.1.table)
      ⟨tracked_init E, _, _, create_shows⟩ ?_
    rintro ⟨u, N⟩ ⟨a, q⟩ y ⟨ht, hN⟩ hq hs
    obtain ⟨v, hv, hs⟩ := Option.bind_eq_some_iff.mp hs
    obtain ⟨⟨_, N'⟩, hr, hs⟩ := Option.bind_eq_some_iff.mp hs
    obtain rfl := Option.some.inj hs
    have hst := transition_of_step hv
    have hN' := (Yields.iff_of_eq hr).mp (follow_spec ht hN hq hst)
    exact ⟨ht.step hst, hN'⟩
  refine ⟨hinv.2.realizes, fun a t q ha hq => ?_⟩
  obtain ⟨_, M', hr, _⟩ := follow_spec hinv.1 hinv.2 hq (transition_of_step ha)
  refine ⟨M', ?_⟩
  simp [linkedStep, ha, hr]

theorem clients_in_memory_registered : ∃ (s : State) (M : TableMemory),
    Reaches linkedStep Allocates (State.init serializer₀, TableMemory.create) (s, M) ∧
      dumpActiveClientInfo M = some ([.currentActiveClient 1,
        .networkAddress client₀.clientIPPort, .client 5 [97]], M) := by
  have h : (execute linkedStep Allocates (State.init serializer₀, TableMemory.create)
      ((connect client₀).map (·, 1) ++
        (sendFrom client₀ 0 (.reg ⟨⟨2, 0⟩, [97], [49], [53, 48]⟩) (by decide)).map (·, 0) ++
        [(.loop .callBack, 0), (.loop .releaseEntity, 0)])).map (fun x => dumpLines x.1.table)
      = some [.currentActiveClient 1, .networkAddress client₀.clientIPPort, .client 5 [97]] := by
    decide +kernel
  obtain ⟨⟨s, M⟩, hs, hdump⟩ := reaches_of_execute_map h
  exact ⟨s, M, hs, hdump ▸ (clients_in_memory hs).1.dump⟩

end Result

end Xty.Server
