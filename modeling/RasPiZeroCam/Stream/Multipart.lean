import RasPiZeroCam.Codes.Reader
import RasPiZeroCam.Stream.Mjpeg

/-!
The multipart body of `handle_stream`, read back: each part states the length of its JPEG, so a
JPEG may contain anything, also the boundary.

* `readPart`, `readParts`: read a header, its `Content-Length`, and that many bytes.
* `multipart_decodable`: a body determines its JPEGs, a prefix of it that is a body some of them.
  `readParts` reads them.  `stream_read_back`: so does a client of the server.
-/

namespace RasPiZeroCam

open Transition Pool

/-- A decimal digit. -/
def isDigitByte (b : UInt8) : Bool := 48 ≤ b && b ≤ 57

/-- The number that a sequence of digits stands for. -/
def decimalValue (digits : Bytes) : ℕ := digits.foldl (fun n b => 10 * n + (b.toNat - 48)) 0

/-- What stands before the length in the header of a part. -/
def partStart : Bytes := ascii "--mjpeg\r\nContent-Type: image/jpeg\r\nContent-Length: "

/-- What stands behind it. -/
def headerEnd : Bytes := ascii "\r\n\r\n"

/-- Read a part: its header, and as many bytes as that says. -/
def readPart (body : Bytes) : Option (Bytes × Bytes) := do
  let rest ← Codes.strip partStart body
  let length := decimalValue (rest.takeWhile isDigitByte)
  let rest ← Codes.strip headerEnd (rest.dropWhile isDigitByte)
  let rest' ← Codes.strip partEnd (rest.drop length)
  some (rest.take length, rest')

/-- Read a body. -/
def readParts (body : Bytes) : Option (List Bytes) := Codes.readAll readPart body.length body

/-! ### The length of a part -/

/-- The digits of a number, as bytes, stand for it. -/
lemma decimalValue_decimal (n : ℕ) : decimalValue (decimal n) = n := by
  have hfold : ∀ (l : List Char) (init : ℕ), (∀ c ∈ l, c.isDigit = true) →
      (l.map fun c => UInt8.ofNat c.toNat).foldl (fun n b => 10 * n + (b.toNat - 48)) init =
        Nat.ofDigitChars 10 l init := by
    intro l
    induction l with
    | nil => exact fun init _ => rfl
    | cons c l ih =>
        intro init hl
        have hdigit : c.isDigit = true := hl c List.mem_cons_self
        simp only [Char.isDigit, Bool.and_eq_true, decide_eq_true_eq] at hdigit
        obtain ⟨-, hhi⟩ : 48 ≤ c.toNat ∧ c.toNat ≤ 57 := hdigit
        have hbyte : (UInt8.ofNat c.toNat).toNat = c.toNat := by
          rw [UInt8.toNat_ofNat', Nat.mod_eq_of_lt (by omega)]
        rw [List.map_cons, List.foldl_cons, hbyte,
          ih _ fun d hd => hl d (List.mem_cons_of_mem c hd)]
        rfl
  rw [decimalValue, decimal, ascii, Nat.toList_repr,
    hfold _ _ fun c hc => Nat.isDigit_of_mem_toDigits (by decide) (by decide) hc]
  exact Nat.ofDigitChars_ten_toDigits

lemma isDigitByte_of_mem_decimal {n : ℕ} {b : UInt8} (h : b ∈ decimal n) :
    isDigitByte b = true := by
  obtain ⟨hlo, hhi⟩ := digit_of_mem_decimal h
  rw [isDigitByte, Bool.and_eq_true, decide_eq_true_eq, decide_eq_true_eq]
  exact ⟨hlo, hhi⟩

/-! ### Parts -/

/-- **A part is read back**, whatever follows it. -/
lemma reads_part : Codes.Reads readPart part := by
  intro jpeg u
  have hpart : part jpeg ++ u =
      partStart ++ (decimal jpeg.length ++ (headerEnd ++ (jpeg ++ (partEnd ++ u)))) := by
    simp only [part, partHeader, partStart, headerEnd, List.append_assoc]
  obtain ⟨c, rest, hend, hc⟩ : ∃ c rest, headerEnd = c :: rest ∧ isDigitByte c = false :=
    ⟨13, [10, 13, 10], by decide, by decide⟩
  obtain ⟨hdigits, hbehind⟩ := Codes.takeWhile_stop (p := isDigitByte) (l := decimal jpeg.length)
    (u := rest ++ (jpeg ++ (partEnd ++ u))) (fun b hb => isDigitByte_of_mem_decimal hb) hc
  rw [← List.cons_append, ← hend] at hdigits hbehind
  rw [hpart, readPart, Codes.strip_append]
  simp only [Option.bind_eq_bind, Option.bind_some]
  rw [hdigits, hbehind, decimalValue_decimal, Codes.strip_append]
  simp only [Option.bind_some]
  rw [List.drop_left, Codes.strip_append, List.take_left, Option.bind_some]

lemma part_ne_nil (jpeg : Bytes) : part jpeg ≠ [] := by
  intro h
  rw [part, partHeader] at h
  simp only [List.append_eq_nil_iff] at h
  exact absurd h.1.1.1.1 (by decide)

/-- **The multipart body is uniquely decodable**: a body that is a prefix of another has a prefix of
its JPEGs, equal bodies have equal JPEGs, and these are read by their lengths. -/
theorem multipart_decodable :
    (∀ xs ys : List Bytes, xs.flatMap part <+: ys.flatMap part → xs <+: ys) ∧
    (∀ xs ys : List Bytes, xs.flatMap part = ys.flatMap part → xs = ys) ∧
    ∀ xs : List Bytes, readParts (xs.flatMap part) = some xs :=
  ⟨fun _ _ => reads_part.flatMap_prefix part_ne_nil,
    fun _ _ => reads_part.flatMap_injective part_ne_nil,
    fun xs => reads_part.readAll_flatMap part_ne_nil (Codes.length_le_flatMap part_ne_nil xs)⟩

/-- Between two parts, a client of the server can read the JPEGs it was sent. -/
theorem stream_read_back {ι : Type*} [DecidableEq ι] {s : Config ι Mjpeg StreamClient}
    (h : (mjpeg.system ι).Reach (fun _ _ => True) s) (c : ι) (hpc : (s.pc c).pc = .wait) :
    readParts (s.pc c).written = some ((s.pc c).taken.map Prod.snd) := by
  have hbody : ((s.pc c).taken.map Prod.snd).flatMap part =
      (s.pc c).taken.flatMap fun t => part t.2 := List.flatMap_map ..
  rw [((Mjpeg.sound_of_reach h).2 c).complete hpc, ← hbody, readParts]
  exact reads_part.readAll_flatMap part_ne_nil (Codes.length_le_flatMap part_ne_nil _)

end RasPiZeroCam
