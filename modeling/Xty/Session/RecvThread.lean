import Xty.Queues.ThreadQueue
import Xty.Session.Receiving

/-! `xtySessionRecvJob` on the receive thread and `xtySession::RecvMsg` in any number of threads.
The only entity of the deserializer goes from the one to the others with the message. -/

namespace Xty.Session.RecvThread

open Xty.General.Runs Xty.General.LittleEndian
open Xty.Message Xty.Queues
open Xty.Server (Memory EntityArray)

def sessionDeSerializeEntityNum : ℕ := 1

/-- A chunk that has passed the checks, with the length that the decoder is given. -/
structure Chunk where
  buf : RecvBuf
  data : RecvData
  len : UInt64

namespace Chunk

def prepare (c : Chunk) : Except (General.Cursor.Failure ExceptionCode) MsgObject :=
  DeSerializeEntity.prepareAt (c.buf.window c.data c.len) c.buf.base

def deSerialize (c : Chunk) : Except (General.Cursor.Failure ExceptionCode) (MsgObject × ℕ) :=
  DeSerializeEntity.deSerializeAt (c.buf.window c.data c.len) c.buf.base

end Chunk

/-- The receive thread has `acquired` an entity, `prepared` a new object at an address, and has it
`decoded`. -/
inductive ReceiverPc where
  | receiving
  | acquiring (c : Chunk)
  | acquired (c : Chunk) (i : ℕ)
  | prepared (c : Chunk) (p : ℕ)
  | decoded (p : ℕ)
  | undefined

/-- A thread that is `outside` the copying of a message may be in `PopMsg`. The fields are copied
one after the other. -/
inductive ReaderPc where
  | outside
  | popped (p : ℕ)
  | copiedHead (p : ℕ) (h : Msg)
  | copiedIP (p : ℕ) (h : Msg) (toProcessIP : Bytes)
  | copiedName (p : ℕ) (h : Msg) (toProcessIP toProcessName : Bytes)
  | copied (p : ℕ) (m : DataMsg)
  | undefined
deriving DecidableEq

/-- The queue holds addresses; its threads are the receive thread, which is `none`, and those that
call `RecvMsg`. The last two fields record the messages decoded, and the complete copies with the
threads that made them. -/
structure State (ι : Type) where
  queue : ThreadQueue.State (Option ι) ℕ
  entities : EntityArray
  memory : Memory
  receiver : ReceiverPc
  reader : ι → ReaderPc
  decoded : List MsgObject
  copies : List (ι × DataMsg)

inductive Action (ι : Type) where
  | recv (b : RecvBuf) (d : RecvData)
  | acquire
  | prepare (p : ℕ)
  | decode
  | enQueue
  | produce
  | signal (j : Option ι)
  | consume (k : ι)
  | wake (k : ι)
  | deQueue (k : ι)
  | copy (k : ι)
  | release (k : ι)

variable {ι : Type}

namespace State

def init : State ι where
  queue := ThreadQueue.State.init
  entities := List.replicate sessionDeSerializeEntityNum ⟨none, false⟩
  memory := fun _ => none
  receiver := .receiving
  reader := fun _ => .outside
  decoded := []
  copies := []

/-- The object behind the pointer after the `dynamic_cast`; with no object there, or a null pointer
after the cast, the access is undefined. -/
def load (s : State ι) (p : ℕ) : Option DataMsg := (s.memory p).bind fun c => asDataMsg c.object

/-- `Prepare` deletes the object that the entity has held. -/
def clear (s : State ι) (i : ℕ) : Memory :=
  match s.entities.owned i with
  | some p => Function.update s.memory p none
  | none => s.memory

end State

def ReaderPc.copy (load : ℕ → Option DataMsg) : ReaderPc → Option ReaderPc
  | .popped p => some ((load p).elim .undefined fun m => .copiedHead p m.toMsg)
  | .copiedHead p h => some ((load p).elim .undefined fun m => .copiedIP p h m.toProcessIP)
  | .copiedIP p h a => some ((load p).elim .undefined fun m => .copiedName p h a m.toProcessName)
  | .copiedName p h a b => some ((load p).elim .undefined fun m => .copied p ⟨h, a, b, m.content⟩)
  | .outside | .copied .. | .undefined => none

def ReaderPc.complete : ReaderPc → List DataMsg
  | .copied _ m => [m]
  | .outside | .popped _ | .copiedHead .. | .copiedIP .. | .copiedName .. | .undefined => []

section Steps

variable [DecidableEq ι] [Fintype ι]

/-- The object is created at an address that is not in use. -/
def step (s : State ι) : Action ι → Option (State ι)
  | .recv b d =>
    match s.receiver with
    | .receiving =>
      if s.queue.pc none = .idle then
        match check d with
        | .passed len => some { s with receiver := .acquiring ⟨b, d, len⟩ }
        | .incompleteHead | .incorrectLength => some s
      else none
    | .acquiring _ | .acquired .. | .prepared .. | .decoded _ | .undefined => none
  | .acquire =>
    match s.receiver with
    | .acquiring c =>
      s.entities.acquireEntity.map fun r => { s with entities := r.2, receiver := .acquired c r.1 }
    | .receiving | .acquired .. | .prepared .. | .decoded _ | .undefined => none
  | .prepare p =>
    match s.receiver with
    | .acquired c i =>
      match c.prepare with
      | .ok m =>
        if s.clear i p = none then
          some { s with
            memory := Function.update (s.clear i) p (some ⟨s.decoded.length, m⟩)
            entities := s.entities.hold i p
            receiver := .prepared c p }
        else none
      | .error _ => some { s with memory := s.clear i, receiver := .undefined }
    | .receiving | .acquiring _ | .prepared .. | .decoded _ | .undefined => none
  | .decode =>
    match s.receiver with
    | .prepared c p =>
      match c.deSerialize with
      | .ok (m, _) => some { s with
          memory := Function.update s.memory p
            ((s.memory p).map fun cell => { cell with object := m })
          decoded := s.decoded ++ [m]
          receiver := .decoded p }
      -- The exception is caught, and nothing gives the entity back.
      | .error (.raised _) => some { s with receiver := .receiving }
      | .error .undefined => some { s with receiver := .undefined }
    | .receiving | .acquiring _ | .acquired .. | .decoded _ | .undefined => none
  | .enQueue =>
    match s.receiver with
    | .decoded p =>
      (ThreadQueue.step s.queue (.enQueue none p)).map fun q =>
        { s with queue := q, receiver := .receiving }
    | .receiving | .acquiring _ | .acquired .. | .prepared .. | .undefined => none
  | .produce => (ThreadQueue.step s.queue (.produce none)).map fun q => { s with queue := q }
  | .signal j =>
    (ThreadQueue.step s.queue (.signal none (j.map some))).map fun q => { s with queue := q }
  | .consume k =>
    if s.reader k = .outside then
      (ThreadQueue.step s.queue (.consume (some k))).map fun q => { s with queue := q }
    else none
  | .wake k => (ThreadQueue.step s.queue (.wake (some k))).map fun q => { s with queue := q }
  | .deQueue k =>
    (ThreadQueue.step s.queue (.deQueue (some k))).map fun q =>
      match s.queue.queue.deQueue with
      | .ok (p, _) => { s with queue := q, reader := Function.update s.reader k (.popped p) }
      | .error _ => { s with queue := q }
  | .copy k =>
    ((s.reader k).copy s.load).map fun c => { s with
      reader := Function.update s.reader k c
      copies := s.copies ++ c.complete.map fun m => (k, m) }
  | .release k =>
    match s.reader k with
    | .copied p _ => some { s with
        entities := s.entities.releaseEntity p
        reader := Function.update s.reader k .outside }
    | .outside | .popped _ | .copiedHead .. | .copiedIP .. | .copiedName .. | .undefined => none

end Steps

def DecodesToData (_ : State ι) : Action ι → Prop
  | .recv b d => ∃ m, runJobRoutine b d = .pushed (.data m)
  | .acquire | .prepare _ | .decode | .enQueue | .produce | .signal _ | .consume _ | .wake _
  | .deQueue _ | .copy _ | .release _ => True

inductive Holder (ι : Type) where
  | nobody
  | acquired
  | prepared (p : ℕ)
  | decoded (p : ℕ) (m : DataMsg)
  | queued (p : ℕ) (m : DataMsg)
  | reading (i : ι) (p : ℕ) (m : DataMsg)
  | copied (i : ι) (p : ℕ) (m : DataMsg)

namespace Holder

def occupied : Holder ι → Bool
  | .nobody => false
  | .acquired | .prepared _ | .decoded .. | .queued .. | .reading .. | .copied .. => true

def pointer : Holder ι → Option ℕ
  | .nobody | .acquired => none
  | .prepared p | .decoded p _ | .queued p _ | .reading _ p _ | .copied _ p _ => some p

def pending : Holder ι → List DataMsg
  | .nobody | .acquired | .prepared _ | .copied .. => []
  | .decoded _ m | .queued _ m | .reading _ _ m => [m]

def nodes : Holder ι → List ℕ
  | .queued p _ => [p]
  | .nobody | .acquired | .prepared _ | .decoded .. | .reading .. | .copied .. => []

def popper : Holder ι → List ι
  | .reading i _ _ => [i]
  | .nobody | .acquired | .prepared _ | .decoded .. | .queued .. | .copied .. => []

def thread : Holder ι → Option ι
  | .reading i _ _ | .copied i _ _ => some i
  | .nobody | .acquired | .prepared _ | .decoded .. | .queued .. => none

end Holder

def Chunk.Decodes (c : Chunk) : Prop := ∃ m a, c.deSerialize = .ok (.data m, a)

def ReceiverPc.Waits : ReceiverPc → Prop
  | .receiving => True
  | .acquiring c => c.Decodes
  | .acquired .. | .prepared .. | .decoded _ | .undefined => False

def Holder.Receives : Holder ι → ReceiverPc → Prop
  | .acquired, c => ∃ k, c = .acquired k 0 ∧ k.Decodes
  | .prepared p, c => ∃ k, c = .prepared k p ∧ k.Decodes
  | .decoded p _, c => c = .decoded p
  | .nobody, c | .queued .., c | .reading .., c | .copied .., c => c.Waits

def ReaderPc.Copies (p : ℕ) (m : DataMsg) : ReaderPc → Prop
  | .popped q => q = p
  | .copiedHead q h => q = p ∧ h = m.toMsg
  | .copiedIP q h a => q = p ∧ h = m.toMsg ∧ a = m.toProcessIP
  | .copiedName q h a b => q = p ∧ h = m.toMsg ∧ a = m.toProcessIP ∧ b = m.toProcessName
  | .outside | .copied .. | .undefined => False

def Holder.Reads : Holder ι → (ι → ReaderPc) → Prop
  | .reading i p m, r => (r i).Copies p m
  | .copied i p m, r => r i = .copied p m
  | .nobody, _ | .acquired, _ | .prepared _, _ | .decoded .., _ | .queued .., _ => True

section Holders

variable {h : Holder ι}

lemma Holder.Receives.wait {c d : ReceiverPc} (hc : h.Receives c) (hw : c.Waits) (hd : d.Waits) :
    h.Receives d := by
  cases h with
  | nobody | queued | reading | copied => exact hd
  | acquired =>
    obtain ⟨k, rfl, _⟩ := hc
    exact hw.elim
  | prepared p =>
    obtain ⟨k, rfl, _⟩ := hc
    exact hw.elim
  | decoded p m =>
    obtain rfl := hc
    exact hw.elim

lemma Holder.Receives.acquired {c : Chunk} {i : ℕ} (hc : h.Receives (.acquired c i)) :
    h = .acquired ∧ i = 0 ∧ c.Decodes := by
  cases h with
  | acquired =>
    obtain ⟨k, hk, hdec⟩ := hc
    cases hk
    exact ⟨rfl, rfl, hdec⟩
  | prepared p =>
    obtain ⟨k, hk, _⟩ := hc
    cases hk
  | decoded p m => cases hc
  | nobody | queued | reading | copied => exact hc.elim

lemma Holder.Receives.prepared {c : Chunk} {p : ℕ} (hc : h.Receives (.prepared c p)) :
    h = .prepared p ∧ c.Decodes := by
  cases h with
  | acquired =>
    obtain ⟨k, hk, _⟩ := hc
    cases hk
  | prepared p =>
    obtain ⟨k, hk, hdec⟩ := hc
    cases hk
    exact ⟨rfl, hdec⟩
  | decoded p m => cases hc
  | nobody | queued | reading | copied => exact hc.elim

lemma Holder.Receives.decoded {p : ℕ} (hc : h.Receives (.decoded p)) : ∃ m, h = .decoded p m := by
  cases h with
  | acquired =>
    obtain ⟨k, hk, _⟩ := hc
    cases hk
  | prepared p =>
    obtain ⟨k, hk, _⟩ := hc
    cases hk
  | decoded p m =>
    cases hc
    exact ⟨m, rfl⟩
  | nobody | queued | reading | copied => exact hc.elim

lemma decodes_of_pushed {b : RecvBuf} {d : RecvData} {len : UInt64} {m : DataMsg}
    (hd : check d = .passed len) (hm : runJobRoutine b d = .pushed (.data m)) :
    Chunk.Decodes ⟨b, d, len⟩ := by
  rw [runJobRoutine, hd] at hm
  simp only at hm
  split at hm
  · next a hdec =>
    cases hm
    exact ⟨m, a, hdec⟩
  all_goals cases hm

lemma Chunk.Decodes.prepare {c : Chunk} (hc : c.Decodes) : ∃ m, c.prepare = .ok m := by
  obtain ⟨m, a, hdec⟩ := hc
  rw [Chunk.deSerialize, DeSerializeEntity.deSerializeAt] at hdec
  split at hdec
  · cases hdec
  · next m hm => exact ⟨m, hm⟩

lemma ReaderPc.Copies.copy {c d : ReaderPc} {load : ℕ → Option DataMsg} {p : ℕ} {m : DataMsg}
    (hc : c.Copies p m) (hp : load p = some m) (hd : c.copy load = some d) :
    (d.Copies p m ∧ d.complete = []) ∨ d = .copied p m := by
  cases c with
  | popped q =>
    cases hc
    rw [ReaderPc.copy, hp] at hd
    cases hd
    exact .inl ⟨⟨rfl, rfl⟩, rfl⟩
  | copiedHead q h =>
    obtain ⟨rfl, rfl⟩ := hc
    rw [ReaderPc.copy, hp] at hd
    cases hd
    exact .inl ⟨⟨rfl, rfl, rfl⟩, rfl⟩
  | copiedIP q h a =>
    obtain ⟨rfl, rfl, rfl⟩ := hc
    rw [ReaderPc.copy, hp] at hd
    cases hd
    exact .inl ⟨⟨rfl, rfl, rfl, rfl⟩, rfl⟩
  | copiedName q h a b =>
    obtain ⟨rfl, rfl, rfl, rfl⟩ := hc
    rw [ReaderPc.copy, hp] at hd
    cases hd
    exact .inr rfl
  | outside | copied | undefined => exact hc.elim

end Holders

section Handing

variable [Fintype ι] {s t : State ι} {h : Holder ι}

structure HeldBy (s : State ι) (h : Holder ι) : Prop where
  queue : ThreadQueue.Inv s.queue
  nodes : s.queue.queue.nodes = h.nodes
  decoded : s.decoded = (s.copies.map Prod.snd ++ h.pending).map .data
  popped : s.queue.dequeued.map Prod.fst = (s.copies.map Prod.fst ++ h.popper).map some
  entity : ∃ o, s.entities = [⟨o, h.occupied⟩] ∧ ∀ p, h.pointer = some p → o = some p
  object : ∀ p, h.pointer = some p → ∀ m ∈ h.pending, s.memory p = some ⟨s.copies.length, .data m⟩
  created : ∀ p, h = .prepared p → ∃ m, s.memory p = some ⟨s.copies.length, m⟩
  receiver : h.Receives s.receiver
  reader : h.Reads s.reader
  others : ∀ i, s.reader i ≠ .outside → h.thread = some i

lemma heldBy_init : HeldBy (State.init : State ι) .nobody where
  queue := ThreadQueue.inv_init
  nodes := rfl
  decoded := rfl
  popped := rfl
  entity := ⟨none, rfl, nofun⟩
  object := nofun
  created := nofun
  receiver := trivial
  reader := trivial
  others := fun _ hi => absurd rfl hi

lemma HeldBy.reads {k : ι} (hs : HeldBy s h) (hk : s.reader k ≠ .outside) :
    ∃ p m, (h = .reading k p m ∧ (s.reader k).Copies p m) ∨
      (h = .copied k p m ∧ s.reader k = .copied p m) := by
  have hthread := hs.others k hk
  have hreader := hs.reader
  cases h with
  | reading i p m =>
    cases hthread
    exact ⟨p, m, .inl ⟨rfl, hreader⟩⟩
  | copied i p m =>
    cases hthread
    exact ⟨p, m, .inr ⟨rfl, hreader⟩⟩
  | nobody | acquired | prepared | decoded | queued => cases hthread

variable [DecidableEq ι]

lemma HeldBy.recv {b : RecvBuf} {d : RecvData} (hs : HeldBy s h)
    (hd : ∃ m, runJobRoutine b d = .pushed (.data m)) (ht : step s (.recv b d) = some t) :
    HeldBy t h := by
  rw [step] at ht
  split at ht
  · next hr =>
    split_ifs at ht
    split at ht
    · next len hlen =>
      obtain ⟨m, hm⟩ := hd
      have hrec := hs.receiver
      rw [hr] at hrec
      obtain rfl := Option.some.inj ht
      exact { hs with receiver := hrec.wait trivial (decodes_of_pushed hlen hm) }
    all_goals
      obtain rfl := Option.some.inj ht
      exact hs
  all_goals cases ht

lemma HeldBy.acquire (hs : HeldBy s h) (ht : step s .acquire = some t) : HeldBy t .acquired := by
  rw [step] at ht
  split at ht
  · next c hr =>
    have hrec := hs.receiver
    rw [hr] at hrec
    obtain ⟨⟨i, A⟩, hA, rfl⟩ := Option.map_eq_some_iff.mp ht
    obtain ⟨o, he, _⟩ := hs.entity
    rw [he] at hA
    cases h with
    | nobody =>
      cases hA
      exact { hs with
        entity := ⟨o, rfl, nofun⟩
        object := nofun
        created := nofun
        receiver := ⟨c, rfl, hrec⟩ }
    | acquired | prepared | decoded | queued | reading | copied => cases hA
  all_goals cases ht

lemma HeldBy.prepare {p : ℕ} (hs : HeldBy s h) (ht : step s (.prepare p) = some t) :
    HeldBy t (.prepared p) := by
  rw [step] at ht
  split at ht
  · next c i hr =>
    have hrec := hs.receiver
    rw [hr] at hrec
    obtain ⟨rfl, rfl, hdec⟩ := hrec.acquired
    obtain ⟨m, hm⟩ := hdec.prepare
    obtain ⟨o, he, _⟩ := hs.entity
    rw [hm] at ht
    simp only at ht
    split_ifs at ht
    obtain rfl := Option.some.inj ht
    have hlength : s.decoded.length = s.copies.length := by
      rw [hs.decoded]
      simp [Holder.pending]
    exact { hs with
      entity := ⟨some p, by rw [he]; rfl, fun q hq => hq.symm ▸ rfl⟩
      object := nofun
      created := fun q hq => by
        cases hq
        exact ⟨m, by rw [← hlength]; exact Function.update_self _ _ _⟩
      receiver := ⟨c, rfl, hdec⟩ }
  all_goals cases ht

lemma HeldBy.decode (hs : HeldBy s h) (ht : step s .decode = some t) :
    ∃ p m, HeldBy t (.decoded p m) := by
  rw [step] at ht
  split at ht
  · next c p hr =>
    have hrec := hs.receiver
    rw [hr] at hrec
    obtain ⟨rfl, m, a, hdec⟩ := hrec.prepared
    obtain ⟨x, hx⟩ := hs.created p rfl
    have hd := hs.decoded
    rw [hdec] at ht
    obtain rfl := Option.some.inj ht
    refine ⟨p, m, { hs with decoded := ?_, object := ?_, created := nofun, receiver := rfl }⟩
    · simp only [hd, Holder.pending]
      simp
    · intro q hq y hy
      cases hq
      obtain rfl := List.mem_singleton.mp hy
      simp [hx]
  all_goals cases ht

lemma HeldBy.enQueue (hs : HeldBy s h) (ht : step s .enQueue = some t) :
    ∃ p m, HeldBy t (.queued p m) := by
  rw [step] at ht
  split at ht
  · next p hr =>
    have hrec := hs.receiver
    rw [hr] at hrec
    obtain ⟨m, rfl⟩ := hrec.decoded
    obtain ⟨q, hq, rfl⟩ := Option.map_eq_some_iff.mp ht
    have hnodes : s.queue.queue.nodes = [] := hs.nodes
    have hinv := ThreadQueue.inv_step hs.queue
      (show ThreadQueue.Bounded s.queue (.enQueue none p) by simp [ThreadQueue.Bounded, hnodes]) hq
    obtain ⟨_, hqueue, hdeq⟩ := ThreadQueue.step_enQueue hq
    refine ⟨p, m, { hs with
      queue := hinv
      nodes := ?_
      popped := ?_
      created := nofun
      receiver := trivial }⟩
    · simp [hqueue, Queue.enQueue, hnodes, Holder.nodes]
    · rw [hdeq]
      exact hs.popped
  all_goals cases ht

lemma HeldBy.event {q : ThreadQueue.State (Option ι) ℕ} {a : ThreadQueue.Action (Option ι) ℕ}
    (hs : HeldBy s h) (hq : ThreadQueue.step s.queue a = some q) (hen : ∀ i m, a ≠ .enQueue i m)
    (hde : ∀ i, a ≠ .deQueue i) : HeldBy { s with queue := q } h := by
  have hb : ThreadQueue.Bounded s.queue a := by
    cases a with
    | enQueue i m => exact absurd rfl (hen i m)
    | produce | signal | consume | wake | deQueue => trivial
  obtain ⟨hqueue, hdeq⟩ := ThreadQueue.step_event hq hen hde
  exact { hs with
    queue := ThreadQueue.inv_step hs.queue hb hq
    nodes := by
      rw [hqueue]
      exact hs.nodes
    popped := by
      rw [hdeq]
      exact hs.popped }

lemma HeldBy.deQueue {k : ι} (hs : HeldBy s h) (ht : step s (.deQueue k) = some t) :
    ∃ p m, HeldBy t (.reading k p m) := by
  obtain ⟨q, hq, rfl⟩ := Option.map_eq_some_iff.mp ht
  have hinv := ThreadQueue.inv_step (a := .deQueue (some k)) hs.queue trivial hq
  obtain ⟨p, hok, hdeq⟩ := ThreadQueue.step_deQueue hs.queue hq
  have hnodes := (Queue.deQueue_ok hok).1
  rw [hs.nodes] at hnodes
  cases h with
  | queued p' m =>
    obtain ⟨rfl, hrest⟩ := List.cons.inj hnodes
    have houtside : ∀ i, s.reader i = .outside := fun i => by
      by_contra hi
      cases hs.others i hi
    rw [hok]
    refine ⟨p', m, { hs with
      queue := hinv
      nodes := hrest.symm
      popped := ?_
      created := nofun
      reader := ?_
      others := ?_ }⟩
    · have hp := hs.popped
      simp only [hdeq, List.map_append, hp]
      simp [Holder.popper]
    · simp [Holder.Reads, ReaderPc.Copies]
    · intro i hi
      by_cases hik : i = k
      · rw [hik]
        rfl
      · simp [Function.update_of_ne hik, houtside] at hi
  | nobody | acquired | prepared | decoded | reading | copied => cases hnodes

lemma HeldBy.copy {k : ι} (hs : HeldBy s h) (ht : step s (.copy k) = some t) :
    ∃ h, HeldBy t h := by
  obtain ⟨c, hc, rfl⟩ := Option.map_eq_some_iff.mp ht
  have hk : s.reader k ≠ .outside := fun hk => by
    rw [hk] at hc
    cases hc
  obtain ⟨p, m, ⟨rfl, hcopies⟩ | ⟨rfl, hcopied⟩⟩ := hs.reads hk
  · have hload : s.load p = some m := by
      rw [State.load, hs.object p rfl m List.mem_cons_self]
      rfl
    have hothers : ∀ i, Function.update s.reader k c i ≠ .outside → some k = some i := by
      intro i hi
      by_cases hik : i = k
      · rw [hik]
      · rw [Function.update_of_ne hik] at hi
        exact hs.others i hi
    have hself : Function.update s.reader k c k = c := Function.update_self _ _ _
    rcases hcopies.copy hload hc with ⟨hnext, hnone⟩ | rfl
    · refine ⟨.reading k p m, ?_⟩
      rw [hnone, List.map_nil, List.append_nil]
      exact { hs with
        created := nofun
        reader := by
          change (Function.update s.reader k c k).Copies p m
          rwa [hself]
        others := hothers }
    · refine ⟨.copied k p m, { hs with
        decoded := ?_
        popped := ?_
        object := nofun
        created := nofun
        reader := hself
        others := hothers }⟩
      · rw [hs.decoded]
        simp [ReaderPc.complete, Holder.pending]
      · rw [hs.popped]
        simp [ReaderPc.complete, Holder.popper]
  · rw [hcopied] at hc
    cases hc

lemma HeldBy.release {k : ι} (hs : HeldBy s h) (ht : step s (.release k) = some t) :
    HeldBy t .nobody := by
  rw [step] at ht
  split at ht
  · next q x hr =>
    have hk : s.reader k ≠ .outside := by
      rw [hr]
      exact nofun
    obtain ⟨p, m, ⟨rfl, hcopies⟩ | ⟨rfl, hcopied⟩⟩ := hs.reads hk
    · rw [hr] at hcopies
      exact hcopies.elim
    · rw [hr] at hcopied
      cases hcopied
      obtain rfl := Option.some.inj ht
      obtain ⟨o, he, ho⟩ := hs.entity
      obtain rfl := ho q rfl
      refine { hs with
        entity := ⟨some q, ?_, nofun⟩
        object := nofun
        created := nofun
        reader := trivial
        others := ?_ }
      · rw [he]
        simp [EntityArray.releaseEntity, Holder.occupied]
      · intro i hi
        change Function.update s.reader k .outside i ≠ .outside at hi
        by_cases hik : i = k
        · rw [hik, Function.update_self] at hi
          exact absurd rfl hi
        · rw [Function.update_of_ne hik] at hi
          exact absurd (Option.some.inj (hs.others i hi)).symm hik
  all_goals cases ht

lemma HeldBy.step {a : Action ι} (hs : HeldBy s h) (hd : DecodesToData s a)
    (ht : RecvThread.step s a = some t) : ∃ h, HeldBy t h := by
  cases a with
  | recv b d => exact ⟨h, hs.recv hd ht⟩
  | acquire => exact ⟨_, hs.acquire ht⟩
  | prepare p => exact ⟨_, hs.prepare ht⟩
  | decode =>
    obtain ⟨p, m, hh⟩ := hs.decode ht
    exact ⟨_, hh⟩
  | enQueue =>
    obtain ⟨p, m, hh⟩ := hs.enQueue ht
    exact ⟨_, hh⟩
  | produce | signal | wake =>
    obtain ⟨q, hq, rfl⟩ := Option.map_eq_some_iff.mp ht
    exact ⟨h, hs.event hq nofun nofun⟩
  | consume k =>
    rw [RecvThread.step] at ht
    split_ifs at ht
    obtain ⟨q, hq, rfl⟩ := Option.map_eq_some_iff.mp ht
    exact ⟨h, hs.event hq nofun nofun⟩
  | deQueue k =>
    obtain ⟨p, m, hh⟩ := hs.deQueue ht
    exact ⟨_, hh⟩
  | copy k => exact hs.copy ht
  | release k => exact ⟨_, hs.release ht⟩

lemma heldBy_of_reaches (hs : Reaches RecvThread.step DecodesToData State.init s) :
    ∃ h, HeldBy s h :=
  Reaches.invariant (I := fun s => ∃ h, HeldBy s h) hs ⟨.nobody, heldBy_init⟩
    fun _ _ _ ⟨_, hs⟩ hd ht => hs.step hd ht

end Handing

section Safety

variable [Fintype ι]

/-- The copies are equal to the messages decoded, in order, and were made by the threads that popped
them. Until a copy is complete the entity keeps the object that was made for this message, and the
receive thread is not between `AcquireEntity` and the end of a decoding. -/
structure HandedOver (s : State ι) : Prop where
  faithful : s.copies.map (fun c => MsgObject.data c.2) <+: s.decoded
  popped : s.copies.map (fun c => some c.1) <+: s.queue.dequeued.map Prod.fst
  outstanding : s.decoded.length ≤ s.copies.length + 1
  popOrder : s.queue.dequeued.length ≤ s.decoded.length
  kept : s.copies.length < s.decoded.length → ∃ p m, s.entities = [⟨some p, true⟩] ∧
    s.memory p = some ⟨s.copies.length, m⟩ ∧ s.decoded.getLast? = some m ∧
      (s.receiver = .decoded p ∨ s.receiver.Waits)
  reading : ∀ i, s.reader i ≠ .outside → ∃ p m, s.entities = [⟨some p, true⟩] ∧
    (s.reader i = .copied p m ∨ (s.reader i).Copies p m ∧
      s.decoded.getLast? = some (.data m) ∧ s.copies.length < s.decoded.length)
  defined : s.receiver ≠ .undefined

variable {s : State ι} {h : Holder ι}

lemma HeldBy.kept (hs : HeldBy s h) (hlt : s.copies.length < s.decoded.length) :
    ∃ p m, s.entities = [⟨some p, true⟩] ∧ s.memory p = some ⟨s.copies.length, m⟩ ∧
      s.decoded.getLast? = some m ∧ (s.receiver = .decoded p ∨ s.receiver.Waits) := by
  have hd := hs.decoded
  obtain ⟨o, he, ho⟩ := hs.entity
  have hobj := hs.object
  have hrec := hs.receiver
  cases h with
  | nobody | acquired | prepared | copied =>
    rw [hd] at hlt
    simp [Holder.pending] at hlt
  | decoded p m =>
    obtain rfl := ho p rfl
    exact ⟨p, .data m, he, hobj p rfl m List.mem_cons_self, by simp [hd, Holder.pending], .inl hrec⟩
  | queued p m | reading _ p m =>
    obtain rfl := ho p rfl
    exact ⟨p, .data m, he, hobj p rfl m List.mem_cons_self, by simp [hd, Holder.pending], .inr hrec⟩

lemma HeldBy.handedOver (hs : HeldBy s h) : HandedOver s where
  faithful := by
    rw [hs.decoded, List.map_append, List.map_map]
    exact List.prefix_append _ _
  popped := by
    rw [hs.popped, List.map_append, List.map_map]
    exact List.prefix_append _ _
  outstanding := by
    rw [hs.decoded]
    cases h <;> simp [Holder.pending]
  popOrder := by
    rw [← List.length_map, hs.popped, hs.decoded]
    cases h <;> simp [Holder.pending, Holder.popper]
  kept := hs.kept
  reading i hi := by
    have hd := hs.decoded
    obtain ⟨o, he, ho⟩ := hs.entity
    obtain ⟨p, m, ⟨rfl, hcopies⟩ | ⟨rfl, hcopied⟩⟩ := hs.reads hi
    · obtain rfl := ho p rfl
      refine ⟨p, m, he, .inr ⟨hcopies, ?_, ?_⟩⟩
      · simp [hd, Holder.pending]
      · simp [hd, Holder.pending]
    · obtain rfl := ho p rfl
      exact ⟨p, m, he, .inl hcopied⟩
  defined hu := by
    have hrec := hs.receiver
    rw [hu] at hrec
    cases h with
    | nobody | queued | reading | copied => exact hrec.elim
    | acquired | prepared =>
      obtain ⟨k, hk, _⟩ := hrec
      cases hk
    | decoded => cases hrec

variable [DecidableEq ι]

theorem messages_handed_over {s : State ι} (h : Reaches step DecodesToData State.init s) :
    HandedOver s := by
  obtain ⟨_, hs⟩ := heldBy_of_reaches h
  exact hs.handedOver

def shortData (x : UInt8) : RecvData where
  bytes := [4, 0, 0, 0] ++ [37, 0, 0, 0, 0, 0, 0, 0] ++ List.replicate 16 0 ++
    [1, 0, 0, 0, 0, 0, 0, 0, x]
  nonempty := by simp
  fits := by simp [serializeBufLen]

def IsData : RecvResult → Bool
  | .pushed (.data _) => true
  | .pushed (.dull _) | .pushed (.quit _) | .pushed (.reg _) | .pushed (.deReg _) => false
  | .incompleteHead | .incorrectLength | .dumped _ | .undefined => false

lemma isData_iff {r : RecvResult} : IsData r ↔ ∃ m, r = .pushed (.data m) := by
  constructor
  · intro h
    cases r with
    | pushed m =>
      cases m with
      | data m => exact ⟨m, rfl⟩
      | dull | quit | reg | deReg => cases h
    | incompleteHead | incorrectLength | dumped | undefined => cases h
  · rintro ⟨m, rfl⟩
    rfl

instance (s : State ι) : (a : Action ι) → Decidable (DecodesToData s a)
  | .recv _ _ => decidable_of_iff _ isData_iff
  | .acquire | .prepare _ | .decode | .enQueue | .produce | .signal _ | .consume _ | .wake _
  | .deQueue _ | .copy _ | .release _ => isTrue trivial

theorem messages_handed_over_two : ∃ s : State (Fin 2),
    Reaches step DecodesToData State.init s ∧
      s.copies = [(1, ⟨⟨4, 37⟩, [], [], [7]⟩), (0, ⟨⟨4, 37⟩, [], [], [8]⟩)] ∧ HandedOver s := by
  let b : RecvBuf := ⟨8192, [], by simp [serializeBufLen, General.Cursor.addressSpace]⟩
  have h : (execute step DecodesToData (State.init : State (Fin 2))
      [.consume 0, .recv b (shortData 7), .acquire, .prepare 64, .decode, .enQueue, .produce,
        .consume 1, .signal (some 0), .deQueue 1, .consume 0, .copy 1, .recv b (shortData 8),
        .copy 1, .copy 1, .copy 1, .release 1, .acquire, .prepare 64, .decode, .enQueue, .produce,
        .wake 0, .consume 0, .signal none, .deQueue 0, .copy 0, .copy 0, .copy 0, .copy 0]).map
          State.copies = some [(1, ⟨⟨4, 37⟩, [], [], [7]⟩), (0, ⟨⟨4, 37⟩, [], [], [8]⟩)] := by
    decide +kernel
  obtain ⟨s, hs, hc⟩ := reaches_of_execute_map h
  exact ⟨s, hs, hc, messages_handed_over hs⟩

end Safety

end Xty.Session.RecvThread
