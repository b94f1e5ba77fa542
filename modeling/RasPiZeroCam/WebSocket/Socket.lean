import RasPiZeroCam.Codes.Supply
import RasPiZeroCam.Text

/-!
The socket of a connection, which is read through a buffer of 4096 bytes.

* `Socket`, `recv`: the bytes that are still to come, and how many of them a call of `recv` finds.
* `SocketStream`: the buffer, and the socket behind it.
* `socketStream`: `SocketStream::read`.
* `Fresh`: a block is next: in the buffer, found with others by one call, or in parts by several.
  `Ready`: it has been read in part.
  `Fresh.exactly`, `Ready.exactly`, `Ready.fully`: then it can be read in parts, each by one call.
* `Arrived`: blocks, each of which is next when those before it have been read.
-/

namespace RasPiZeroCam

namespace Ws

open Codes

/-- What the peer is still going to send, and how many bytes of it have arrived at each of the next
calls of `recv`, which wait for one; later ones find all that is left. -/
structure Socket where
  left : Bytes
  found : List ℕ

/-- `recv(sock, ptr, size, 0)`; nothing when the connection is closed, or nothing comes in time. -/
def recv (size : ℕ) (sock : Socket) : Bytes × Socket :=
  let n := min size (max 1 (sock.found.headD sock.left.length))
  (sock.left.take n, ⟨sock.left.drop n, sock.found.tail⟩)

/-- `SocketStream`: the part of `read_buff_` between `read_buff_off_` and `read_buff_content_size_`,
and the socket. -/
structure SocketStream where
  read_buff_ : Bytes
  sock_ : Socket

/-- `read_buff_size_`. -/
def readBuffSize : ℕ := 4096

/-- `SocketStream::read`, which gives nothing where the source returns 0 or -1. -/
def SocketStream.read (size : ℕ) (s : SocketStream) : Bytes × SocketStream :=
  if s.read_buff_ ≠ [] then
    if size ≤ s.read_buff_.length then
      (s.read_buff_.take size, { s with read_buff_ := s.read_buff_.drop size })
    else (s.read_buff_, { s with read_buff_ := [] })
  else if size < readBuffSize then
    let (n, sock_) := recv readBuffSize s.sock_
    if n.length ≤ size then (n, ⟨[], sock_⟩) else (n.take size, ⟨n.drop size, sock_⟩)
  else
    let (n, sock_) := recv size s.sock_
    (n, ⟨[], sock_⟩)

/-- What a connection has still to give. -/
def SocketStream.left (s : SocketStream) : Bytes := s.read_buff_ ++ s.sock_.left

lemma recv_split (size : ℕ) (sock : Socket) :
    (recv size sock).1 ++ (recv size sock).2.left = sock.left :=
  List.take_append_drop _ _

lemma recv_short (size : ℕ) (sock : Socket) : (recv size sock).1.length ≤ size :=
  (List.length_take_le _ _).trans (min_le_left _ _)

lemma recv_ne_nil {size : ℕ} (hsize : 0 < size) {sock : Socket} (h : sock.left ≠ []) :
    (recv size sock).1 ≠ [] := by
  show sock.left.take _ ≠ []
  rw [Ne, List.take_eq_nil_iff]
  exact not_or_intro (by omega) h

lemma SocketStream.read_split (size : ℕ) (s : SocketStream) :
    (s.read size).1 ++ (s.read size).2.left = s.left := by
  obtain ⟨buff, sock⟩ := s
  rw [SocketStream.read]
  split_ifs with hbuff hle hsize
  · simp only [SocketStream.left]
    rw [← List.append_assoc, List.take_append_drop]
  · rfl
  · obtain rfl : buff = [] := not_not.mp hbuff
    have hsplit := recv_split readBuffSize sock
    rcases hr : recv readBuffSize sock with ⟨n, rest⟩
    rw [hr] at hsplit
    dsimp only
    split_ifs
    · exact hsplit
    · simp only [SocketStream.left]
      rw [← List.append_assoc, List.take_append_drop]
      exact hsplit
  · obtain rfl : buff = [] := not_not.mp hbuff
    exact recv_split size sock

lemma SocketStream.read_short (size : ℕ) (s : SocketStream) : (s.read size).1.length ≤ size := by
  obtain ⟨buff, sock⟩ := s
  rw [SocketStream.read]
  split_ifs with hbuff hle hsize
  · exact List.length_take_le _ _
  · exact le_of_lt (Nat.lt_of_not_le hle)
  · rcases hr : recv readBuffSize sock with ⟨n, rest⟩
    dsimp only
    split_ifs with hn
    · exact hn
    · exact List.length_take_le _ _
  · exact recv_short size sock

lemma SocketStream.read_progress (size : ℕ) (s : SocketStream) (hsize : 0 < size)
    (h : s.left ≠ []) : (s.read size).1 ≠ [] := by
  obtain ⟨buff, sock⟩ := s
  rw [SocketStream.read]
  split_ifs with hbuff hle hlt
  · rw [Ne, List.take_eq_nil_iff]
    exact not_or_intro hsize.ne' hbuff
  · exact hbuff
  · obtain rfl : buff = [] := not_not.mp hbuff
    have hbuffer : 0 < readBuffSize := by decide
    have hne := recv_ne_nil hbuffer h
    rcases hr : recv readBuffSize sock with ⟨n, rest⟩
    rw [hr] at hne
    dsimp only
    split_ifs
    · exact hne
    · rw [Ne, List.take_eq_nil_iff]
      exact not_or_intro hsize.ne' hne
  · obtain rfl : buff = [] := not_not.mp hbuff
    exact recv_ne_nil hsize h

/-- The stream of a connection. -/
def socketStream : Supply UInt8 SocketStream where
  read := SocketStream.read
  left := SocketStream.left
  split := SocketStream.read_split
  short := SocketStream.read_short
  progress := SocketStream.read_progress

/-! ### Blocks -/

/-- The block `t` is what is read next, the first `m` bytes of it (or all of them) from the buffer,
and what is still to come of it by itself; then `s'` is left. -/
inductive Ready (m : ℕ) (t : Bytes) (s' : SocketStream) : SocketStream → Prop
  | buffered : Ready m t s' ⟨t ++ s'.read_buff_, s'.sock_⟩
  | arriving (buff rest : Bytes) (ks : List ℕ) : s'.read_buff_ = [] → buff ++ rest = t →
      min m t.length ≤ buff.length → (∀ k ∈ ks, 0 < k) → ks.sum = rest.length →
      Ready m t s' ⟨buff, ⟨rest ++ s'.sock_.left, ks ++ s'.sock_.found⟩⟩

/-- The block `t` is what is read next, and nothing of it has been read: it is in the buffer, or
`recv` finds it with what is buffered then, or by itself and the first `m` bytes of it (or all of
them) at once. -/
inductive Fresh (m : ℕ) (t : Bytes) (s' : SocketStream) : SocketStream → Prop
  | buffered : Fresh m t s' ⟨t ++ s'.read_buff_, s'.sock_⟩
  | together : (t ++ s'.read_buff_).length ≤ readBuffSize → Fresh m t s'
      ⟨[], ⟨(t ++ s'.read_buff_) ++ s'.sock_.left, (t ++ s'.read_buff_).length :: s'.sock_.found⟩⟩
  | alone (k : ℕ) (ks : List ℕ) : s'.read_buff_ = [] → k ≤ t.length → min m t.length ≤ k →
      (∀ j ∈ ks, 0 < j) → min k readBuffSize + ks.sum = t.length →
      Fresh m t s' ⟨[], ⟨t ++ s'.sock_.left, k :: (ks ++ s'.sock_.found)⟩⟩

variable {m : ℕ} {a t : Bytes} {s s' : SocketStream}

lemma Ready.mono (h : Ready m t s' s) {m' : ℕ} (hle : m' ≤ m) : Ready m' t s' s := by
  cases h with
  | buffered => exact .buffered
  | arriving buff rest ks hnil hblock hbuff hks hsum =>
      exact .arriving buff rest ks hnil hblock ((min_le_min_right _ hle).trans hbuff) hks hsum

/-- A read of what the buffer holds. -/
lemma read_buffered (ha : a ≠ []) (sock : Socket) :
    SocketStream.read a.length ⟨a ++ t, sock⟩ = (a, ⟨t, sock⟩) := by
  have hne : a ++ t ≠ [] := fun h => ha (List.append_eq_nil_iff.mp h).1
  have hle : a.length ≤ (a ++ t).length := by
    rw [List.length_append]
    exact Nat.le_add_right _ _
  rw [SocketStream.read, if_pos hne, if_pos hle, List.take_left, List.drop_left]

/-- A read that fills the buffer. -/
lemma read_empty {size : ℕ} (h : size < readBuffSize) (sock : Socket) :
    SocketStream.read size ⟨[], sock⟩ =
      ((recv readBuffSize sock).1.take size,
        ⟨(recv readBuffSize sock).1.drop size, (recv readBuffSize sock).2⟩) := by
  rw [SocketStream.read, if_neg (not_not.mpr rfl), if_pos h]
  dsimp only
  split_ifs with hle
  · rw [List.take_of_length_le hle, List.drop_of_length_le hle]
  · rfl

/-- A call that finds what it takes. -/
lemma recv_found {n size : ℕ} (hn : min size (max 1 n) = a.length) (t : Bytes) (found : List ℕ) :
    recv size ⟨a ++ t, n :: found⟩ = (a, ⟨t, found⟩) := by
  rw [recv]
  dsimp only [List.headD_cons, List.tail_cons]
  rw [hn, List.take_left, List.drop_left]

/-- A part that is found where at least as much is asked for. -/
lemma read_found {size : ℕ} (ha : a ≠ []) (hsize : a.length ≤ size) (t : Bytes) (found : List ℕ) :
    SocketStream.read size ⟨[], ⟨a ++ t, a.length :: found⟩⟩ = (a, ⟨[], ⟨t, found⟩⟩) := by
  have hpos : 0 < a.length := List.length_pos_iff.mpr ha
  have hrecv : ∀ n, a.length ≤ n → recv n ⟨a ++ t, a.length :: found⟩ = (a, ⟨t, found⟩) :=
    fun n hle => recv_found (by omega) t found
  by_cases hlt : size < readBuffSize
  · rw [read_empty hlt, hrecv _ (hsize.trans hlt.le), List.take_of_length_le hsize,
      List.drop_of_length_le hsize]
  · rw [SocketStream.read, if_neg (not_not.mpr rfl), if_neg hlt, hrecv _ hsize]

lemma exactly_of_read (h : SocketStream.read a.length s = (a, s')) :
    socketStream.exactly a.length s = some (a, s') := by
  have hread : socketStream.read a.length s = (a, s') := h
  rw [Supply.exactly, hread]
  exact if_pos rfl

/-- **A small part** of a block. -/
lemma Ready.exactly (h : Ready m (a ++ t) s' s) (ha : a ≠ []) (hm : a.length ≤ m) :
    ∃ s₁, socketStream.exactly a.length s = some (a, s₁) ∧ Ready (m - a.length) t s' s₁ := by
  cases h with
  | buffered =>
      rw [List.append_assoc]
      exact ⟨_, exactly_of_read (read_buffered ha _), .buffered⟩
  | arriving buff rest ks hnil hblock hbuff hks hsum =>
      rw [List.length_append] at hbuff
      have htake : buff.take a.length = a := by
        have htake : (buff ++ rest).take a.length = buff.take a.length :=
          List.take_append_of_le_length (by omega)
        rw [hblock, List.take_left] at htake
        exact htake.symm
      have hsplit : a ++ buff.drop a.length = buff := by
        conv_rhs => rw [← List.take_append_drop a.length buff, htake]
      have hrest : buff.drop a.length ++ rest = t := by
        refine (List.append_cancel_left_eq a _ _).mp ?_
        rw [← List.append_assoc, hsplit, hblock]
      refine ⟨_, exactly_of_read ?_, .arriving _ rest ks hnil hrest ?_ hks hsum⟩
      · have hread := read_buffered (t := buff.drop a.length) ha
          ⟨rest ++ s'.sock_.left, ks ++ s'.sock_.found⟩
        rw [hsplit] at hread
        exact hread
      · rw [List.length_drop]
        omega

/-- **The first part** of a block. -/
lemma Fresh.exactly (h : Fresh m (a ++ t) s' s) (ha : a ≠ []) (hm : a.length ≤ m)
    (hbuff : m < readBuffSize) :
    ∃ s₁, socketStream.exactly a.length s = some (a, s₁) ∧ Ready (m - a.length) t s' s₁ := by
  have hpos : 0 < a.length := List.length_pos_iff.mpr ha
  have hlt : a.length < readBuffSize := hm.trans_lt hbuff
  cases h with
  | buffered =>
      rw [List.append_assoc]
      exact ⟨_, exactly_of_read (read_buffered ha _), .buffered⟩
  | together hlen =>
      have hall : 0 < (a ++ t ++ s'.read_buff_).length := by
        rw [List.append_assoc, List.length_append]
        omega
      refine ⟨⟨t ++ s'.read_buff_, s'.sock_⟩, exactly_of_read ?_, .buffered⟩
      rw [read_empty hlt, recv_found (by omega), List.append_assoc, List.take_left, List.drop_left]
  | alone k ks hnil hk hfirst hks hsum =>
      rw [List.length_append] at hk hfirst hsum
      -- what the first call takes behind `a`, and what it leaves
      let n := min k readBuffSize - a.length
      have hn : min readBuffSize (max 1 k) = (a ++ t.take n).length := by
        rw [List.length_append, List.length_take]
        omega
      have hsplit : a ++ t ++ s'.sock_.left = (a ++ t.take n) ++ (t.drop n ++ s'.sock_.left) := by
        rw [List.append_assoc, List.append_assoc, ← List.append_assoc (t.take n),
          List.take_append_drop]
      refine ⟨_, exactly_of_read ?_, .arriving (t.take n) (t.drop n) ks hnil
        (List.take_append_drop n t) ?_ hks ?_⟩
      · rw [hsplit, read_empty hlt, recv_found hn, List.take_left, List.drop_left]
      · rw [List.length_take]
        omega
      · rw [List.length_drop]
        omega

/-- Parts that are found one after the other. -/
lemma fully_found (left : Bytes) (found : List ℕ) : ∀ (ks : List ℕ) {rest : Bytes} {fuel : ℕ},
    (∀ k ∈ ks, 0 < k) → ks.sum = rest.length → rest.length ≤ fuel →
    socketStream.fully fuel rest.length ⟨[], ⟨rest ++ left, ks ++ found⟩⟩ =
      some (rest, ⟨[], ⟨left, found⟩⟩) := by
  intro ks
  induction ks with
  | nil =>
      intro rest fuel _ hsum _
      obtain rfl : rest = [] := List.length_eq_zero_iff.mp hsum.symm
      cases fuel <;> rfl
  | cons k ks ih =>
      intro rest fuel hks hsum hfuel
      obtain ⟨hk, hks⟩ := List.forall_mem_cons.mp hks
      rw [List.sum_cons] at hsum
      obtain ⟨fuel, rfl⟩ := Nat.exists_eq_add_one_of_ne_zero (n := fuel) (by omega)
      have hlen : (rest.take k).length = k := List.length_take_of_le (by omega)
      have hne : rest.take k ≠ [] := List.length_pos_iff.mp (by omega)
      have hread : socketStream.read rest.length ⟨[], ⟨rest ++ left, k :: (ks ++ found)⟩⟩ =
          (rest.take k, ⟨[], ⟨rest.drop k ++ left, ks ++ found⟩⟩) := by
        have hread := read_found hne (by omega : (rest.take k).length ≤ rest.length)
          (rest.drop k ++ left) (ks ++ found)
        rw [← List.append_assoc, List.take_append_drop, hlen] at hread
        exact hread
      have hdrop : (rest.drop k).length = rest.length - (rest.take k).length := by
        rw [List.length_drop, hlen]
      have hrest : socketStream.fully fuel (rest.drop k).length
          ⟨[], ⟨rest.drop k ++ left, ks ++ found⟩⟩ = some (rest.drop k, ⟨[], ⟨left, found⟩⟩) :=
        ih hks (by omega) (by omega)
      rw [hdrop] at hrest
      have hfull := socketStream.fully_read fuel (by omega) hread hne hrest
      rw [List.take_append_drop] at hfull
      exact hfull

/-- **All that is left** of a block. -/
lemma Ready.fully (h : Ready m t s' s) :
    socketStream.fully t.length t.length s = some (t, s') := by
  cases h with
  | buffered =>
      by_cases ht : t = []
      · rw [ht]
        rfl
      · exact socketStream.fully_one (read_buffered (t := s'.read_buff_) ht s'.sock_) rfl ht le_rfl
  | arriving buff rest ks hnil hblock _ hks hsum =>
      have hs' : s' = ⟨[], ⟨s'.sock_.left, s'.sock_.found⟩⟩ := by rw [← hnil]
      have hlast : ∀ {fuel}, rest.length ≤ fuel → socketStream.fully fuel rest.length
          ⟨[], ⟨rest ++ s'.sock_.left, ks ++ s'.sock_.found⟩⟩ = some (rest, s') := fun hfuel =>
        hs' ▸ fully_found s'.sock_.left s'.sock_.found ks hks hsum hfuel
      have hlen : (buff ++ rest).length = buff.length + rest.length := List.length_append
      rw [← hblock]
      by_cases hbuff : buff = []
      · rw [hbuff]
        exact hlast le_rfl
      · have hpos := List.length_pos_iff.mpr hbuff
        -- the buffer is given first
        have hread : SocketStream.read (buff ++ rest).length
            ⟨buff, ⟨rest ++ s'.sock_.left, ks ++ s'.sock_.found⟩⟩ =
            (buff, ⟨[], ⟨rest ++ s'.sock_.left, ks ++ s'.sock_.found⟩⟩) := by
          rw [SocketStream.read, if_pos hbuff]
          split_ifs with hle
          · obtain rfl : rest = [] := List.length_eq_zero_iff.mp (by dsimp only at hle; omega)
            rw [List.append_nil, List.take_length, List.drop_length]
          · rfl
        have hrest : (buff ++ rest).length - buff.length = rest.length := by omega
        have hfull := socketStream.fully_read ((buff ++ rest).length - 1) (by omega) hread
          hbuff (by rw [hrest]; exact hlast (by omega))
        rw [Nat.sub_add_cancel (by omega)] at hfull
        exact hfull

/-! ### Blocks one after another -/

/-- The blocks that are left, each of which is next when those before it have been read. -/
inductive Arrived {α : Type} (m : ℕ) (code : α → Bytes) : List α → SocketStream → Prop
  | done (found : List ℕ) : Arrived m code [] ⟨[], ⟨[], found⟩⟩
  | next {as : List α} {s s' : SocketStream} (a : α) : Fresh m (code a) s' s →
      Arrived m code as s' → Arrived m code (a :: as) s

/-- What is left are the blocks. -/
lemma Arrived.left {α : Type} {code : α → Bytes} {as : List α} (h : Arrived m code as s) :
    s.left = as.flatMap code := by
  induction h with
  | done found => rfl
  | next a hfresh _ ih =>
      rw [List.flatMap_cons, ← ih]
      cases hfresh with
      | buffered => exact List.append_assoc _ _ _
      | together _ => exact List.append_assoc _ _ _
      | alone _ _ hnil _ _ _ _ =>
          simp only [SocketStream.left]
          rw [hnil]
          rfl

end Ws

end RasPiZeroCam
