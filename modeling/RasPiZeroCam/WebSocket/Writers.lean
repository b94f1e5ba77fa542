import RasPiZeroCam.Transition.Mutex
import RasPiZeroCam.Transition.System
import RasPiZeroCam.WebSocket.Frames

/-!
The threads that write frames on one connection: handlers that reply, broadcasts, the heartbeat,
and whoever reads and answers.

* `WriteCall`, `WriterPc`, `Writers`: the calls that write a frame, where a thread is in one, and
  the connection.
* `Writers.step`: their statements, with writes that fail or are cut short; `writers`.
* `Untorn`: what is on the wire are the frames in the order in which `write_mutex_` was taken, up to
  what the owner has left to write.
* `ClosedOnce`: behind a close frame there are only pongs.
* `frames_untorn`: both hold in every run, and what the client reads are the first of the frames.
-/

namespace RasPiZeroCam

namespace Ws

open Transition

/-- A call that writes a frame. -/
inductive WriteCall where
  | send (opcode : Opcode) (payload : Bytes)   -- `send_frame`
  | pong (payload : Bytes)                     -- `read` answers a ping
  | close (payload : Bytes)                    -- `close`, and `read` when the peer closes
  deriving DecidableEq

namespace WriteCall

def frame : WriteCall → Frame
  | send opcode payload => ⟨true, opcode, payload⟩
  | pong payload => ⟨true, .pong, payload⟩
  | close payload => ⟨true, .close, payload⟩

def isPong : WriteCall → Bool
  | pong _ => true
  | _ => false

def isClose : WriteCall → Bool
  | close _ => true
  | _ => false

end WriteCall

/-- Where a thread is in a call. -/
inductive WriterPc where
  | idle
  | exchange (payload : Bytes)                   -- `closed_.exchange(true)`
  | lock (c : WriteCall)                         -- `lock_guard<std::mutex> lock(write_mutex_)`
  | test (c : WriteCall)                         -- `if (closed_) { return false; }`
  | write (c : WriteCall) (left : List Bytes)    -- the calls of `strm.write` that are left
  | unlock
  deriving DecidableEq

namespace WriterPc

/-- It has `write_mutex_`. -/
def inside : WriterPc → Bool
  | test _ => true
  | write _ _ => true
  | unlock => true
  | _ => false

/-- The call that has not begun to write. -/
def pending : WriterPc → List WriteCall
  | exchange payload => [.close payload]
  | lock c => [c]
  | test c => [c]
  | _ => []

end WriterPc

/-- The first statement of a call. -/
def WriteCall.enter : WriteCall → WriterPc
  | close payload => .exchange payload
  | c => .lock c

/-- A connection, and the threads `κ` that write on it. -/
structure Writers (κ : Type) where
  strm : Bytes                 -- what `strm.write` has put on the wire
  closed_ : Bool
  write_mutex_ : Option κ
  pc : κ → WriterPc
  -- the books
  calls : κ → List WriteCall   -- of each thread
  log : List (κ × WriteCall)   -- the frames, from when they are begun

/-- What happens on a connection. -/
inductive WriterEvent (κ : Type) where
  | call (x : κ) (c : WriteCall)
  | step (x : κ)
  | fail (x : κ)               -- `strm.write` returns a negative number
  | short (x : κ) (n : ℕ)      -- it writes `n` bytes only, which is not looked at
  | shut                       -- `closed_ = true`, without a close frame
  deriving DecidableEq

variable {κ : Type}

namespace Writers

/-- At the upgrade of the connection. -/
def new : Writers κ := ⟨[], false, none, fun _ => .idle, fun _ => [], []⟩

variable [DecidableEq κ]

/-- A thread goes on. -/
def goto (x : κ) (pc : WriterPc) (w : Writers κ) : Writers κ :=
  { w with pc := Function.update w.pc x pc }

/-- `write_websocket_frame` is called. -/
def begin (x : κ) (c : WriteCall) (w : Writers κ) : Writers κ :=
  { w with log := w.log ++ [(x, c)] }.goto x (.write c (writeFrame c.frame none))

/-- A statement of a thread. -/
def threadStep (x : κ) (w : Writers κ) : Option (Writers κ) :=
  match w.pc x with
  | .idle => none
  | .exchange payload =>
      if w.closed_ then some (w.goto x .idle)
      else some ({ w with closed_ := true }.goto x (.lock (.close payload)))
  | .lock c =>
      match w.write_mutex_ with
      | some _ => none
      | none =>
          let w := { w with write_mutex_ := some x }
          match c with
          | .send _ _ => some (w.goto x (.test c))
          | _ => some (w.begin x c)
  | .test c => if w.closed_ then some (w.goto x .unlock) else some (w.begin x c)
  | .write _ [] => some (w.goto x .unlock)
  | .write c (b :: left) => some ({ w with strm := w.strm ++ b }.goto x (.write c left))
  | .unlock => some ({ w with write_mutex_ := none }.goto x .idle)

def step (w : Writers κ) : WriterEvent κ → Option (Writers κ)
  | .call x c =>
      if w.pc x = .idle then
        some ({ w with calls := Function.update w.calls x (w.calls x ++ [c]) }.goto x c.enter)
      else none
  | .step x => w.threadStep x
  | .fail x =>
      match w.pc x with
      | .write _ (_ :: _) => some (w.goto x .unlock)
      | _ => none
  | .short x n =>
      match w.pc x with
      | .write c (b :: left) =>
          if n < b.length then some ({ w with strm := w.strm ++ b.take n }.goto x (.write c left))
          else none
      | _ => none
  | .shut => some { w with closed_ := true }

/-- The frames that have been begun. -/
def frames (w : Writers κ) : List Frame := w.log.map fun e => e.2.frame

/-- Their bytes. -/
def bytes (w : Writers κ) : Bytes := w.log.flatMap fun e => encode none e.2.frame

end Writers

/-- The threads on a connection. -/
def writers (κ : Type) [DecidableEq κ] : System (Writers κ) (WriterEvent κ) where
  init w := w = .new
  step := Writers.step

/-- A call as the library makes it, whose frame the peer reads. -/
structure WriteCall.Proper (max_len : ℕ) (c : WriteCall) : Prop where
  legal : c.frame.Legal max_len
  sends : ∀ opcode payload, c = .send opcode payload → opcode ≠ .close ∧ opcode ≠ .pong

/-- Proper calls, and writes that take all their bytes. -/
def WriterEvent.Full (max_len : ℕ) : WriterEvent κ → Prop
  | .call _ c => c.Proper max_len
  | .fail _ => False
  | .short _ _ => False
  | _ => True

/-! ### What is on the wire -/

/-- **Nothing is torn**: the bytes on the wire are those of the frames, up to what the owner of
`write_mutex_` has left to write. -/
structure Untorn (w : Writers κ) : Prop where
  held : Held (fun x => (w.pc x).inside = true) w.write_mutex_
  writing : ∀ x c left, w.pc x = .write c left → w.strm ++ left.flatten = w.bytes
  rest : (∀ x c left, w.pc x ≠ .write c left) → w.strm = w.bytes

variable {w w' : Writers κ} {x y : κ} {c : WriteCall} {pc : WriterPc}

lemma Untorn.new : Untorn (.new : Writers κ) where
  held _ := iff_of_false Bool.false_ne_true (by simp [Writers.new])
  writing _ _ _ h := by cases h
  rest _ := rfl

/-- Nobody else writes. -/
lemma Untorn.alone (h : Untorn w) (hx : (w.pc x).inside = true) {left : List Bytes}
    (hy : w.pc y = .write c left) : y = x :=
  h.held.unique (by rw [hy]; rfl) hx

/-- **The connection is closed once**: behind a close frame there are only pongs. -/
structure ClosedOnce (w : Writers κ) : Prop where
  order : w.log.Pairwise fun a b => a.2.isClose = true → b.2.isPong = true
  closed : ∀ e ∈ w.log, e.2.isClose = true → w.closed_ = true
  closing : ∀ x payload, w.pc x = .lock (.close payload) → w.closed_ = true ∧
    (∀ e ∈ w.log, e.2.isClose = false) ∧ ∀ y payload', w.pc y = .lock (.close payload') → y = x
  tested : ∀ x c, w.pc x = .test c → c.isClose = false

/-- It is about the log, `closed_` and where the threads are. -/
lemma ClosedOnce.keep (h : ClosedOnce w) (hlog : w'.log = w.log) (hclosed : w'.closed_ = w.closed_)
    (hpc : w'.pc = w.pc) : ClosedOnce w' where
  order := hlog ▸ h.order
  closed := hlog ▸ hclosed ▸ h.closed
  closing := hlog ▸ hclosed ▸ hpc ▸ h.closing
  tested := hpc ▸ h.tested

/-- While the connection is open, there is no close frame. -/
lemma ClosedOnce.no_close (h : ClosedOnce w) (hopen : w.closed_ = false) :
    ∀ e ∈ w.log, e.2.isClose = false := by
  intro e he
  by_contra hclose
  cases hopen.symm.trans (h.closed e he (Bool.eq_true_of_not_eq_false hclose))

variable [DecidableEq κ]

lemma Writers.pc_goto_self : (w.goto x pc).pc x = pc := Function.update_self _ _ _

lemma Writers.pc_goto_of_ne (h : y ≠ x) : (w.goto x pc).pc y = w.pc y :=
  Function.update_of_ne h _ _

lemma Writers.begin_goto : (w.goto x pc).begin x c = w.begin x c := by
  simp only [Writers.begin, Writers.goto, Function.update_idem]

/-- Who is somewhere is the thread that has gone there, or another where it was. -/
lemma Writers.pc_goto_cases {q : WriterPc} (h : (w.goto x pc).pc y = q) :
    (y = x ∧ pc = q) ∨ (y ≠ x ∧ w.pc y = q) := by
  by_cases hy : y = x
  · subst hy
    exact Or.inl ⟨rfl, Writers.pc_goto_self.symm.trans h⟩
  · exact Or.inr ⟨hy, (Writers.pc_goto_of_ne hy).symm.trans h⟩

namespace Untorn

lemma inside_of_ne (hy : y ≠ x) :
    ((w.goto x pc).pc y).inside = true ↔ (w.pc y).inside = true := by
  rw [Writers.pc_goto_of_ne hy]

/-- A thread goes on, inside or outside. -/
lemma held_goto (h : Untorn w) (hin : pc.inside = (w.pc x).inside) :
    Held (fun y => ((w.goto x pc).pc y).inside = true) w.write_mutex_ := by
  refine h.held.keep (fun y => ?_) rfl
  by_cases hy : y = x
  · rw [hy, Writers.pc_goto_self, hin]
  · exact inside_of_ne hy

/-- It does not write. -/
lemma goto (h : Untorn w) (hin : pc.inside = (w.pc x).inside)
    (hfrom : ∀ c left, w.pc x ≠ .write c left) (hto : ∀ c left, pc ≠ .write c left) :
    Untorn (w.goto x pc) where
  held := h.held_goto hin
  writing := by
    intro y c left hy
    rcases Writers.pc_goto_cases hy with ⟨-, hat⟩ | ⟨-, hat⟩
    · exact absurd hat (hto c left)
    · exact h.writing y c left hat
  rest := by
    intro hnone
    refine h.rest fun y c left hy => ?_
    by_cases hyx : y = x
    · exact hfrom c left (hyx ▸ hy)
    · exact hnone y c left ((Writers.pc_goto_of_ne hyx).trans hy)

/-- A thread takes the mutex. -/
lemma take (h : Untorn w) (hfree : w.write_mutex_ = none) (hin : pc.inside = true)
    (hto : ∀ c left, pc ≠ .write c left) :
    Untorn (Writers.goto x pc { w with write_mutex_ := some x }) where
  held := h.held.take hfree (by rw [Writers.pc_goto_self]; exact hin)
    (fun y hy => inside_of_ne hy) rfl
  writing := by
    intro y c left hy
    rcases Writers.pc_goto_cases hy with ⟨-, hat⟩ | ⟨-, hat⟩
    · exact absurd hat (hto c left)
    · exact h.writing y c left hat
  rest := by
    intro _
    refine h.rest fun y c left hy => h.held.not_inside hfree y ?_
    show (w.pc y).inside = true
    rw [hy]
    rfl

/-- Its owner gives it back. -/
lemma release (h : Untorn w) (hx : w.pc x = .unlock) :
    Untorn (Writers.goto x .idle { w with write_mutex_ := none }) where
  held := h.held.release (x := x) (by rw [hx]; rfl)
    (by rw [Writers.pc_goto_self]; exact Bool.false_ne_true) (fun y hy => inside_of_ne hy) rfl
  writing := by
    intro y c left hy
    rcases Writers.pc_goto_cases hy with ⟨-, hat⟩ | ⟨-, hat⟩
    · cases hat
    · exact h.writing y c left hat
  rest := by
    intro hnone
    refine h.rest fun y c left hy => ?_
    by_cases hyx : y = x
    · cases hx.symm.trans (hyx ▸ hy)
    · exact hnone y c left ((Writers.pc_goto_of_ne hyx).trans hy)

/-- A frame is begun. -/
lemma begin (h : Untorn w) (hx : w.pc x = .test c) : Untorn (w.begin x c) where
  held := h.held_goto (by rw [hx]; rfl)
  writing := by
    have hbytes : (w.begin x c).bytes = w.bytes ++ encode none c.frame := by
      show (w.log ++ [(x, c)]).flatMap _ = _
      rw [List.flatMap_append, List.flatMap_singleton]
      rfl
    have hin : (w.pc x).inside = true := by rw [hx]; rfl
    intro y d left hy
    rcases Writers.pc_goto_cases hy with ⟨-, hat⟩ | ⟨hyx, hat⟩
    · obtain ⟨-, rfl⟩ := WriterPc.write.inj hat
      rw [hbytes, ← h.rest fun z d left hz => ?_]
      · rfl
      · cases h.alone hin hz
        cases hx.symm.trans hz
    · exact absurd (h.alone hin hat) hyx
  rest hnone := absurd Writers.pc_goto_self (hnone x c _)

/-- A part of it is written. -/
lemma write (h : Untorn w) {b : Bytes} {left : List Bytes} (hx : w.pc x = .write c (b :: left)) :
    Untorn (Writers.goto x (.write c left) { w with strm := w.strm ++ b }) where
  held := h.held_goto (by rw [hx]; rfl)
  writing := by
    have hin : (w.pc x).inside = true := by rw [hx]; rfl
    intro y d left' hy
    rcases Writers.pc_goto_cases hy with ⟨-, hat⟩ | ⟨hyx, hat⟩
    · obtain ⟨-, rfl⟩ := WriterPc.write.inj hat
      refine Eq.trans ?_ (h.writing x c _ hx)
      rw [List.flatten_cons, ← List.append_assoc]
      rfl
    · exact absurd (h.alone hin hat) hyx
  rest hnone := absurd Writers.pc_goto_self (hnone x c left)

/-- And all of it. -/
lemma written (h : Untorn w) (hx : w.pc x = .write c []) : Untorn (w.goto x .unlock) where
  held := h.held_goto (by rw [hx]; rfl)
  writing := by
    have hin : (w.pc x).inside = true := by rw [hx]; rfl
    intro y d left hy
    rcases Writers.pc_goto_cases hy with ⟨-, hat⟩ | ⟨hyx, hat⟩
    · cases hat
    · exact absurd (h.alone hin hat) hyx
  rest _ := (List.append_nil _).symm.trans (h.writing x c [] hx)

end Untorn

/-! ### Behind a close frame -/

namespace ClosedOnce

/-- A thread goes on, but not to a close frame. -/
lemma goto (h : ClosedOnce w) (hclose : ∀ payload, pc ≠ .lock (.close payload))
    (htest : ∀ c, pc = .test c → c.isClose = false) : ClosedOnce (w.goto x pc) where
  order := h.order
  closed := h.closed
  closing := by
    intro y payload hy
    rcases Writers.pc_goto_cases hy with ⟨-, hat⟩ | ⟨-, hat⟩
    · exact absurd hat (hclose payload)
    · obtain ⟨hclosed, hnone, honly⟩ := h.closing y payload hat
      refine ⟨hclosed, hnone, fun z payload' hz => ?_⟩
      rcases Writers.pc_goto_cases hz with ⟨-, hat'⟩ | ⟨-, hat'⟩
      · exact absurd hat' (hclose payload')
      · exact honly z payload' hat'
  tested := by
    intro y c hy
    rcases Writers.pc_goto_cases hy with ⟨-, hat⟩ | ⟨-, hat⟩
    · exact htest c hat
    · exact h.tested y c hat

/-- A thread is the first that closes the connection. -/
lemma exchange (h : ClosedOnce w) (hopen : w.closed_ = false) (payload : Bytes) :
    ClosedOnce (Writers.goto x (.lock (.close payload)) { w with closed_ := true }) where
  order := h.order
  closed _ _ _ := rfl
  closing := by
    have honly : ∀ y payload', (w.goto x (.lock (.close payload))).pc y = .lock (.close payload') →
        y = x := by
      intro y payload' hy
      rcases Writers.pc_goto_cases hy with ⟨hyx, -⟩ | ⟨-, hat⟩
      · exact hyx
      · cases hopen.symm.trans (h.closing y payload' hat).1
    intro y payload' hy
    refine ⟨rfl, h.no_close hopen, fun z payload'' hz => ?_⟩
    rw [honly y payload' hy]
    exact honly z payload'' hz
  tested := by
    intro y c hy
    rcases Writers.pc_goto_cases hy with ⟨-, hat⟩ | ⟨-, hat⟩
    · cases hat
    · exact h.tested y c hat

/-- A frame is begun. -/
lemma begin (h : ClosedOnce w)
    (horder : (∀ e ∈ w.log, e.2.isClose = false) ∨ c.isPong = true)
    (hclosed : c.isClose = true → w.closed_ = true)
    (hothers : c.isClose = true → ∀ y payload, w.pc y = .lock (.close payload) → y = x) :
    ClosedOnce (w.begin x c) where
  order := by
    refine List.pairwise_append.mpr ⟨h.order, List.pairwise_singleton _ _, ?_⟩
    intro a ha b hb hclose
    rw [List.mem_singleton.mp hb]
    exact horder.resolve_left fun hnone => by cases (hnone a ha).symm.trans hclose
  closed := List.forall_mem_append.mpr ⟨h.closed, List.forall_mem_singleton.mpr hclosed⟩
  closing := by
    intro y payload hy
    rcases Writers.pc_goto_cases hy with ⟨-, hat⟩ | ⟨hyx, hat⟩
    · cases hat
    · obtain ⟨hat', hnone, honly⟩ := h.closing y payload hat
      refine ⟨hat', List.forall_mem_append.mpr ⟨hnone, List.forall_mem_singleton.mpr ?_⟩, ?_⟩
      · by_contra hclose
        exact hyx (hothers (Bool.eq_true_of_not_eq_false hclose) y payload hat)
      · intro z payload' hz
        rcases Writers.pc_goto_cases hz with ⟨-, hz⟩ | ⟨-, hz⟩
        · cases hz
        · exact honly z payload' hz
  tested := by
    intro y c hy
    rcases Writers.pc_goto_cases hy with ⟨-, hat⟩ | ⟨-, hat⟩
    · cases hat
    · exact h.tested y c hat

end ClosedOnce

/-! ### Whose frames they are -/

/-- The frames of a thread. -/
def Writers.framesOf (w : Writers κ) (x : κ) : List WriteCall :=
  (w.log.filter fun e => e.1 = x).map Prod.snd

/-- **Each thread's frames** are calls of it, in their order. -/
def InTurn (w : Writers κ) : Prop := ∀ x, (w.framesOf x ++ (w.pc x).pending).Sublist (w.calls x)

namespace InTurn

/-- A thread goes on, with its call or without it. -/
lemma goto (h : InTurn w) (hpending : pc.pending.Sublist (w.pc x).pending) :
    InTurn (w.goto x pc) := by
  intro y
  by_cases hy : y = x
  · subst hy
    rw [Writers.pc_goto_self]
    exact ((List.Sublist.refl _).append hpending).trans (h y)
  · rw [Writers.pc_goto_of_ne hy]
    exact h y

/-- A call is made. -/
lemma call (h : InTurn w) (hidle : w.pc x = .idle) : InTurn
    (Writers.goto x c.enter { w with calls := Function.update w.calls x (w.calls x ++ [c]) }) := by
  intro y
  by_cases hy : y = x
  · subst hy
    have hbefore := h y
    have henter : c.enter.pending = [c] := by cases c <;> rfl
    rw [hidle, show WriterPc.idle.pending = [] from rfl, List.append_nil] at hbefore
    rw [Writers.pc_goto_self, henter]
    show List.Sublist _ (Function.update w.calls y (w.calls y ++ [c]) y)
    rw [Function.update_self]
    exact hbefore.append (List.Sublist.refl _)
  · rw [Writers.pc_goto_of_ne hy]
    show List.Sublist _ (Function.update w.calls x (w.calls x ++ [c]) y)
    rw [Function.update_of_ne hy]
    exact h y

/-- Its frame is begun. -/
lemma begin (h : InTurn w) (hpending : (w.pc x).pending = [c]) : InTurn (w.begin x c) := by
  intro y
  have hframes : (w.begin x c).framesOf y = w.framesOf y ++ if x = y then [c] else [] := by
    show ((w.log ++ [(x, c)]).filter _).map Prod.snd = _
    rw [List.filter_append, List.map_append, List.filter_singleton]
    by_cases hxy : x = y <;> simp [hxy, Writers.framesOf]
  rw [hframes]
  by_cases hy : y = x
  · subst hy
    have hbefore := h y
    rw [hpending] at hbefore
    rw [if_pos rfl, show ((w.begin y c).pc y).pending = [] from
      congrArg WriterPc.pending Writers.pc_goto_self, List.append_nil]
    exact hbefore
  · rw [if_neg (Ne.symm hy), List.append_nil, show (w.begin x c).pc y = w.pc y from
      Writers.pc_goto_of_ne hy]
    exact h y

end InTurn

/-! ### Every run -/

/-- What holds in every run whose writes take all their bytes. -/
structure Writers.Sound (max_len : ℕ) (w : Writers κ) : Prop where
  untorn : Untorn w
  closedOnce : ClosedOnce w
  inTurn : InTurn w
  proper : ∀ x, ∀ c ∈ w.calls x, c.Proper max_len

namespace Writers.Sound

variable {max_len : ℕ}

lemma new : Sound max_len (.new : Writers κ) where
  untorn := .new
  closedOnce := ⟨.nil, List.forall_mem_nil _, fun _ _ h => (by cases h), fun _ _ h => (by cases h)⟩
  inTurn _ := .slnil
  proper _ := List.forall_mem_nil _

/-- A thread goes on, inside or outside, without a call that it did not have. -/
lemma goto (h : Sound max_len w) (hin : pc.inside = (w.pc x).inside)
    (hfrom : ∀ c left, w.pc x ≠ .write c left) (hpc : pc = .idle ∨ pc = .unlock) :
    Sound max_len (w.goto x pc) where
  untorn := h.untorn.goto hin hfrom (by rcases hpc with rfl | rfl <;> simp)
  closedOnce := h.closedOnce.goto (by rcases hpc with rfl | rfl <;> simp)
    (by rcases hpc with rfl | rfl <;> simp)
  inTurn := h.inTurn.goto (by rcases hpc with rfl | rfl <;> exact List.nil_sublist _)
  proper := h.proper

/-- A call is made. -/
lemma call (h : Sound max_len w) (hidle : w.pc x = .idle) (hproper : c.Proper max_len) :
    Sound max_len (Writers.goto x c.enter
      { w with calls := Function.update w.calls x (w.calls x ++ [c]) }) where
  untorn := by
    have huntorn : Untorn { w with calls := Function.update w.calls x (w.calls x ++ [c]) } :=
      ⟨h.untorn.held, h.untorn.writing, h.untorn.rest⟩
    refine huntorn.goto ?_ (by simp [hidle]) ?_
    · show c.enter.inside = (w.pc x).inside
      rw [hidle]
      cases c <;> rfl
    · cases c <;> simp [WriteCall.enter]
  closedOnce := by
    have hclosedOnce : ClosedOnce
        { w with calls := Function.update w.calls x (w.calls x ++ [c]) } :=
      h.closedOnce.keep rfl rfl rfl
    refine hclosedOnce.goto ?_ ?_
    · cases c <;> simp [WriteCall.enter]
    · cases c <;> simp [WriteCall.enter]
  inTurn := h.inTurn.call hidle
  proper := by
    intro y d hd
    change d ∈ Function.update w.calls x (w.calls x ++ [c]) y at hd
    by_cases hy : y = x
    · subst hy
      rw [Function.update_self] at hd
      rcases List.mem_append.mp hd with hd | hd
      · exact h.proper y d hd
      · rw [List.mem_singleton.mp hd]
        exact hproper
    · rw [Function.update_of_ne hy] at hd
      exact h.proper y d hd

/-- The first that closes the connection. -/
lemma exchange (h : Sound max_len w) {payload : Bytes} (hx : w.pc x = .exchange payload)
    (hopen : w.closed_ = false) :
    Sound max_len (Writers.goto x (.lock (.close payload)) { w with closed_ := true }) := by
  have huntorn : Untorn { w with closed_ := true } :=
    ⟨h.untorn.held, h.untorn.writing, h.untorn.rest⟩
  have hinTurn : InTurn { w with closed_ := true } := h.inTurn
  refine ⟨huntorn.goto ?_ (by simp [hx]) (by simp), h.closedOnce.exchange hopen payload,
    hinTurn.goto ?_, h.proper⟩
  · show false = (w.pc x).inside
    rw [hx]
    rfl
  · show List.Sublist [WriteCall.close payload] (w.pc x).pending
    rw [hx]
    exact .refl _

/-- The mutex is taken by a thread that will look at `closed_`. -/
lemma take (h : Sound max_len w) (hx : w.pc x = .lock c) (hfree : w.write_mutex_ = none)
    (hclose : c.isClose = false) :
    Sound max_len (Writers.goto x (.test c) { w with write_mutex_ := some x }) := by
  have hclosedOnce : ClosedOnce { w with write_mutex_ := some x } :=
    h.closedOnce.keep rfl rfl rfl
  have hinTurn : InTurn { w with write_mutex_ := some x } := h.inTurn
  refine ⟨h.untorn.take hfree rfl (by simp), hclosedOnce.goto (by simp) ?_, hinTurn.goto ?_,
    h.proper⟩
  · intro d hd
    rw [← WriterPc.test.inj hd]
    exact hclose
  · show List.Sublist [c] (w.pc x).pending
    rw [hx]
    exact .refl _

/-- The mutex is taken, and a frame is begun. -/
lemma takeBegin (h : Sound max_len w) (hx : w.pc x = .lock c) (hfree : w.write_mutex_ = none)
    (horder : (∀ e ∈ w.log, e.2.isClose = false) ∨ c.isPong = true)
    (hclosed : c.isClose = true → w.closed_ = true)
    (hothers : c.isClose = true → ∀ y payload, w.pc y = .lock (.close payload) → y = x) :
    Sound max_len (Writers.begin x c { w with write_mutex_ := some x }) where
  untorn := by
    have htaken : Untorn (Writers.goto x (.test c) { w with write_mutex_ := some x }) :=
      h.untorn.take hfree rfl (by simp)
    rw [← Writers.begin_goto]
    exact htaken.begin Writers.pc_goto_self
  closedOnce := by
    have hclosedOnce : ClosedOnce { w with write_mutex_ := some x } :=
      h.closedOnce.keep rfl rfl rfl
    exact hclosedOnce.begin horder hclosed hothers
  inTurn := by
    have hinTurn : InTurn { w with write_mutex_ := some x } := h.inTurn
    refine hinTurn.begin ?_
    show (w.pc x).pending = [c]
    rw [hx]
    rfl
  proper := h.proper

/-- A frame is begun after the look at `closed_`. -/
lemma begin (h : Sound max_len w) (hx : w.pc x = .test c) (hopen : w.closed_ = false) :
    Sound max_len (w.begin x c) := by
  have hnot : c.isClose ≠ true := by
    rw [h.closedOnce.tested x c hx]
    exact Bool.false_ne_true
  refine ⟨h.untorn.begin hx, ?_, h.inTurn.begin (by rw [hx]; rfl), h.proper⟩
  exact h.closedOnce.begin (Or.inl (h.closedOnce.no_close hopen)) (fun hc => absurd hc hnot)
    fun hc => absurd hc hnot

/-- A part of a frame is written. -/
lemma write (h : Sound max_len w) {b : Bytes} {left : List Bytes}
    (hx : w.pc x = .write c (b :: left)) :
    Sound max_len (Writers.goto x (.write c left) { w with strm := w.strm ++ b }) := by
  have hclosedOnce : ClosedOnce { w with strm := w.strm ++ b } := h.closedOnce.keep rfl rfl rfl
  have hinTurn : InTurn { w with strm := w.strm ++ b } := h.inTurn
  exact ⟨h.untorn.write hx, hclosedOnce.goto (by simp) (by simp),
    hinTurn.goto (List.nil_sublist _), h.proper⟩

/-- And all of it. -/
lemma written (h : Sound max_len w) (hx : w.pc x = .write c []) :
    Sound max_len (w.goto x .unlock) :=
  ⟨h.untorn.written hx, h.closedOnce.goto (by simp) (by simp), h.inTurn.goto (List.nil_sublist _),
    h.proper⟩

/-- The mutex is given back. -/
lemma release (h : Sound max_len w) (hx : w.pc x = .unlock) :
    Sound max_len (Writers.goto x .idle { w with write_mutex_ := none }) := by
  have hclosedOnce : ClosedOnce { w with write_mutex_ := none } := h.closedOnce.keep rfl rfl rfl
  have hinTurn : InTurn { w with write_mutex_ := none } := h.inTurn
  exact ⟨h.untorn.release hx, hclosedOnce.goto (by simp) (by simp),
    hinTurn.goto (List.nil_sublist _), h.proper⟩

/-- `closed_` is set without a frame. -/
lemma shut (h : Sound max_len w) : Sound max_len { w with closed_ := true } where
  untorn := ⟨h.untorn.held, h.untorn.writing, h.untorn.rest⟩
  closedOnce := ⟨h.closedOnce.order, fun _ _ _ => rfl,
    fun x payload hx => ⟨rfl, (h.closedOnce.closing x payload hx).2⟩, h.closedOnce.tested⟩
  inTurn := h.inTurn
  proper := h.proper

/-- **A statement of a thread** keeps it. -/
lemma threadStep (h : Sound max_len w) (hstep : w.threadStep x = some w') : Sound max_len w' := by
  cases hpc : w.pc x with
  | idle =>
      simp only [Writers.threadStep, hpc] at hstep
      cases hstep
  | exchange payload =>
      simp only [Writers.threadStep, hpc] at hstep
      split_ifs at hstep with hclosed
      · obtain rfl := Option.some.inj hstep
        exact h.goto (by rw [hpc]; rfl) (by simp [hpc]) (Or.inl rfl)
      · obtain rfl := Option.some.inj hstep
        exact h.exchange hpc (Bool.eq_false_of_not_eq_true hclosed)
  | lock c =>
      cases hmutex : w.write_mutex_ with
      | some y =>
          simp only [Writers.threadStep, hpc, hmutex] at hstep
          cases hstep
      | none =>
          cases c with
          | send opcode payload =>
              simp only [Writers.threadStep, hpc, hmutex] at hstep
              obtain rfl := Option.some.inj hstep
              exact h.take hpc hmutex rfl
          | pong payload =>
              simp only [Writers.threadStep, hpc, hmutex] at hstep
              obtain rfl := Option.some.inj hstep
              exact h.takeBegin hpc hmutex (Or.inr rfl) (fun hc => by cases hc)
                fun hc => by cases hc
          | close payload =>
              simp only [Writers.threadStep, hpc, hmutex] at hstep
              obtain rfl := Option.some.inj hstep
              obtain ⟨hclosed, hnone, honly⟩ := h.closedOnce.closing x payload hpc
              exact h.takeBegin hpc hmutex (Or.inl hnone) (fun _ => hclosed) fun _ => honly
  | test c =>
      simp only [Writers.threadStep, hpc] at hstep
      split_ifs at hstep with hclosed
      · obtain rfl := Option.some.inj hstep
        exact h.goto (by rw [hpc]; rfl) (by simp [hpc]) (Or.inr rfl)
      · obtain rfl := Option.some.inj hstep
        exact h.begin hpc (Bool.eq_false_of_not_eq_true hclosed)
  | write c left =>
      cases left with
      | nil =>
          simp only [Writers.threadStep, hpc] at hstep
          obtain rfl := Option.some.inj hstep
          exact h.written hpc
      | cons b left =>
          simp only [Writers.threadStep, hpc] at hstep
          obtain rfl := Option.some.inj hstep
          exact h.write hpc
  | unlock =>
      simp only [Writers.threadStep, hpc] at hstep
      obtain rfl := Option.some.inj hstep
      exact h.release hpc

/-- **A step** keeps it. -/
lemma step (h : Sound max_len w) {e : WriterEvent κ} (hfull : e.Full max_len)
    (hstep : w.step e = some w') : Sound max_len w' := by
  cases e with
  | call x c =>
      simp only [Writers.step] at hstep
      split_ifs at hstep with hidle
      obtain rfl := Option.some.inj hstep
      exact h.call hidle hfull
  | step x => exact h.threadStep hstep
  | fail x => exact hfull.elim
  | short x n => exact hfull.elim
  | shut =>
      obtain rfl := Option.some.inj hstep
      exact h.shut

end Writers.Sound

lemma sound_of_reach {max_len : ℕ}
    (h : (writers κ).Reach (fun _ e => e.Full max_len) w) : w.Sound max_len := by
  refine h.invariant (Writers.Sound max_len) (fun w hw => ?_) fun w e w' _ hw hfull hstep =>
    hw.step hfull hstep
  obtain rfl : w = .new := hw
  exact .new

namespace Writers.Sound

variable {max_len : ℕ}

/-- The frames are calls that were made. -/
lemma proper_log (h : Sound max_len w) : ∀ e ∈ w.log, e.2.Proper max_len := by
  intro e he
  refine h.proper e.1 e.2 ((h.inTurn e.1).subset (List.mem_append_left _ ?_))
  exact List.mem_map_of_mem (List.mem_filter.mpr ⟨he, decide_eq_true rfl⟩)

/-- The bytes on the wire are the first of those of the frames. -/
lemma strm_first (h : Sound max_len w) : w.strm <+: w.bytes := by
  by_cases hnone : ∀ x c left, w.pc x ≠ .write c left
  · rw [h.untorn.rest hnone]
  · push Not at hnone
    obtain ⟨x, c, left, hx⟩ := hnone
    exact ⟨left.flatten, h.untorn.writing x c left hx⟩

/-- And all of them, when nobody has the mutex. -/
lemma strm_of_free (h : Sound max_len w) (hfree : w.write_mutex_ = none) : w.strm = w.bytes := by
  refine h.untorn.rest fun x c left hx => h.untorn.held.not_inside hfree x ?_
  rw [hx]
  rfl

/-- Behind a close frame there are only pongs. -/
lemma close_last (h : Sound max_len w) :
    w.frames.Pairwise fun f g => f.opcode = .close → g.opcode = .pong := by
  refine List.pairwise_map.mpr (h.closedOnce.order.imp_of_mem fun {a b} ha _ hab hclose => ?_)
  have hproper := h.proper_log a ha
  have hisClose : a.2.isClose = true := by
    cases hcall : a.2 with
    | send opcode payload =>
        rw [hcall] at hclose
        exact absurd hclose (hproper.sends opcode payload hcall).1
    | pong payload =>
        rw [hcall] at hclose
        cases hclose
    | close payload => rfl
  have hisPong := hab hisClose
  cases hcall : b.2 with
  | send opcode payload =>
      rw [hcall] at hisPong
      cases hisPong
  | pong payload => rfl
  | close payload =>
      rw [hcall] at hisPong
      cases hisPong

end Writers.Sound

/-- **Frames are not torn**, whoever writes at the same time: as long as the writes take all their
bytes, what is on the wire are whole frames in the order of the mutex, and the first part of one
more.  Each thread's frames are in the order of its calls, behind a close frame there are only
pongs, and what the client reads are the first of the frames. -/
theorem frames_untorn (max_len : ℕ) (w : Writers κ)
    (h : (writers κ).Reach (fun _ e => e.Full max_len) w) :
    w.strm <+: w.bytes ∧ (w.write_mutex_ = none → w.strm = w.bytes) ∧
    (∀ x, (w.framesOf x).Sublist (w.calls x)) ∧
    (w.frames.Pairwise fun f g => f.opcode = .close → g.opcode = .pong) ∧
    ∀ n (s : SocketStream), s.left <+: w.strm →
      readFrames socketStream false max_len n s <+: w.frames := by
  have hsound := sound_of_reach h
  have hbytes : w.bytes = wire (w.frames.map fun f => ((none : Option MaskKey), f)) := by
    rw [wire, Writers.frames, List.map_map, List.flatMap_map]
    rfl
  have hlegal : ∀ f ∈ w.frames.map fun f => ((none : Option MaskKey), f),
      f.1.isSome = false ∧ f.2.Legal max_len := by
    intro f hf
    obtain ⟨g, hg, rfl⟩ := List.mem_map.mp hf
    obtain ⟨e, he, rfl⟩ := List.mem_map.mp hg
    exact ⟨rfl, (hsound.proper_log e he).legal⟩
  refine ⟨hsound.strm_first, hsound.strm_of_free, fun x => ?_, hsound.close_last, ?_⟩
  · exact (List.sublist_append_left _ _).trans (hsound.inTurn x)
  · intro n s hleft
    have hread := readFrames_first hlegal n (hbytes ▸ hleft.trans hsound.strm_first)
    rw [List.map_map] at hread
    rwa [show w.frames.map (Prod.snd ∘ fun f => ((none : Option MaskKey), f)) = w.frames from
      List.map_id _] at hread

/-- A reply, of which the header has been written, and a pong that waits. -/
def halfEvents : List (WriterEvent Bool) :=
  [.call false (.send .text (ascii "ok")), .call true (.pong []), .step false, .step false,
    .step false]

/-- The connection then. -/
def halfWritten : Writers Bool :=
  ((writers Bool).exec (fun _ e => decide (e ∈ halfEvents)) .new halfEvents).getD .new

/-- The client has a part of one frame. -/
theorem frames_untorn_half : halfWritten.strm = [0x81, 0x02] ∧
    halfWritten.strm <+: halfWritten.bytes := by
  have hproper : ∀ c ∈ [WriteCall.send .text (ascii "ok"), .pong []], c.Proper 125 := by
    refine List.forall_mem_cons.mpr ⟨⟨⟨fun code hcode => ?_, fun hcontrol => ?_, ?_, ?_⟩, ?_⟩,
      List.forall_mem_singleton.mpr ⟨⟨fun code hcode => ?_, fun _ => ⟨rfl, ?_⟩, ?_, ?_⟩, ?_⟩⟩
    · cases hcode
    · exact absurd rfl hcontrol
    · decide
    · decide
    · intro opcode payload hc
      obtain ⟨rfl, -⟩ := WriteCall.send.inj hc
      decide
    · cases hcode
    · decide
    · decide
    · decide
    · intro opcode payload hc
      cases hc
  have hfull : ∀ e ∈ halfEvents, e.Full 125 := by
    obtain ⟨hsend, hpong⟩ := List.forall_mem_cons.mp hproper
    exact List.forall_mem_cons.mpr ⟨hsend, List.forall_mem_cons.mpr
      ⟨hpong _ List.mem_cons_self, List.forall_mem_cons.mpr ⟨trivial,
        List.forall_mem_cons.mpr ⟨trivial, List.forall_mem_singleton.mpr trivial⟩⟩⟩⟩
  have hrun : (writers Bool).exec (fun _ e => decide (e ∈ halfEvents)) .new halfEvents =
      some halfWritten := rfl
  have hreach : (writers Bool).Reach (fun _ e => e.Full 125) halfWritten :=
    .of_exec_check (fun _ e he => hfull e (of_decide_eq_true he)) rfl hrun
  exact ⟨rfl, (frames_untorn 125 halfWritten hreach).1⟩

end Ws

end RasPiZeroCam
