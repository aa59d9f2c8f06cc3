import Mathlib.Algebra.Ring.Nat
import Mathlib.Data.List.Basic
import IMonPlatform.Lib.Buffer

/-!
# Packet frames: a 4-byte big-endian length and the serialised packet

`CGPBManagerV2::encode_header` writes the body length in front of a packet,
`CCommonSocket::decode_header` reads it back, and `queuePacketFromDataBuffer` parses the bytes
after it.  Lengths are 32-bit in the source (`unsigned`, `int`, and `size_t` of the Win32
builds), so sums are reduced modulo `2^32`.

* `decodeHeader_header` — the decoder inverts the encoder on every 32-bit length.
* `writeFrame_eq` — the buffer that `dispatchSendMessage` fills is `header ++ body`, whatever
  the reused buffer held before.
* `parseRegion_frame` — the region parsed from a frame is exactly its body.
* `completeBodies` — the bodies of the frames that lie completely within the first `p` bytes of
  a stream; `completeBodies_eq` recognises them from a decomposition of the stream.
-/

set_option autoImplicit false

namespace IMonPlatform.Framing

abbrev Bytes := List UInt8

/-- `PACKET_HEADER_SIZE`, the same constant in `CGPBManagerV2` and `CCommonSocket`. -/
def PACKET_HEADER_SIZE : Nat := 4

/-- Unsigned 32-bit wrap-around. -/
def u32 (n : Nat) : Nat := n % 2 ^ 32

/-- Signed 32-bit wrap-around. -/
def i32 (n : Int) : Int := n.bmod (2 ^ 32)

/-- `CGPBManagerV2::encode_header`: the length, big-endian, into the first four cells. -/
def encodeHeader (buffer : Bytes) (size : Nat) : Bytes :=
  (((buffer.set 0 (UInt8.ofNat ((size >>> 24) &&& 0xFF))).set 1
    (UInt8.ofNat ((size >>> 16) &&& 0xFF))).set 2
    (UInt8.ofNat ((size >>> 8) &&& 0xFF))).set 3
    (UInt8.ofNat (size &&& 0xFF))

/-- `CCommonSocket::decode_header`. -/
def decodeHeader (buffer : Bytes) : Nat :=
  if buffer.length < PACKET_HEADER_SIZE then 0
  else (buffer.take PACKET_HEADER_SIZE).foldl
    (fun msgSize b => u32 (u32 (msgSize * 256) + (b.toNat &&& 0xFF))) 0

/-- The header of a packet of `size` bytes. -/
def header (size : Nat) : Bytes := encodeHeader (List.replicate PACKET_HEADER_SIZE 0) size

/-- The frame of a packet body. -/
def frame (body : Bytes) : Bytes := header body.length ++ body

/-- The byte stream of a list of packet bodies. -/
def stream (bodies : List Bytes) : Bytes := bodies.flatMap frame

/-- The buffer handed to `sendPacket` by `dispatchSendMessage`: resize, encode the header,
    serialise behind it.  `writeBuffer` is the vector left by the previous packet. -/
def writeFrame (writeBuffer body : Bytes) : Bytes :=
  let buffer := Buffer.resize writeBuffer (u32 (PACKET_HEADER_SIZE + body.length)) 0
  Buffer.overwrite (encodeHeader buffer body.length) PACKET_HEADER_SIZE body

/-- The size argument of `ParseFromArray`: `(int)dataBuffer.size() - PACKET_HEADER_SIZE`. -/
def parseSize (size : Nat) : Int := i32 (i32 size - PACKET_HEADER_SIZE)

/-- The bytes of a received buffer that `queuePacketFromDataBuffer` parses. -/
def parseRegion (dataBuffer : Bytes) : Bytes :=
  (dataBuffer.drop PACKET_HEADER_SIZE).take (parseSize dataBuffer.length).toNat

/-! ## Header round trip -/

theorem length_encodeHeader (buffer : Bytes) (size : Nat) :
    (encodeHeader buffer size).length = buffer.length := by
  simp [encodeHeader]

/-- The encoder overwrites the four header cells and nothing else. -/
theorem encodeHeader_append {h : Bytes} (hh : h.length = PACKET_HEADER_SIZE) (rest : Bytes)
    (size : Nat) : encodeHeader (h ++ rest) size = header size ++ rest := by
  match h, hh with
  | [a, b, c, d], _ => rfl

@[simp] theorem length_header (size : Nat) : (header size).length = PACKET_HEADER_SIZE := by
  simp [header, length_encodeHeader]

@[simp] theorem length_frame (body : Bytes) :
    (frame body).length = PACKET_HEADER_SIZE + body.length := by
  simp [frame]

theorem decodeHeader_take (buffer : Bytes) (h : PACKET_HEADER_SIZE ≤ buffer.length) :
    decodeHeader (buffer.take PACKET_HEADER_SIZE) = decodeHeader buffer := by
  simp only [decodeHeader, List.length_take, List.take_take, Nat.min_self]
  rw [if_neg (by omega), if_neg (by omega)]

/-- **The decoder inverts the encoder** on every 32-bit length. -/
theorem decodeHeader_header {size : Nat} (h : size < 2 ^ 32) :
    decodeHeader (header size) = size := by
  have hmask (n : Nat) : n &&& 255 = n % 256 := Nat.and_two_pow_sub_one_eq_mod n 8
  simp only [header, encodeHeader, PACKET_HEADER_SIZE, List.replicate, List.set, decodeHeader,
    List.length_cons, List.length_nil, List.take, List.foldl, u32, hmask, UInt8.toNat_ofNat',
    Nat.shiftRight_eq_div_pow]
  rw [if_neg (by omega)]
  omega

/-! ## The sender's buffer and the receiver's parse region -/

/-- **The sender's buffer is the frame**, independently of the reused vector. -/
theorem writeFrame_eq (writeBuffer : Bytes) {body : Bytes} (h : body.length < 2 ^ 31) :
    writeFrame writeBuffer body = frame body := by
  have hn : u32 (PACKET_HEADER_SIZE + body.length) = PACKET_HEADER_SIZE + body.length :=
    Nat.mod_eq_of_lt (by simp only [PACKET_HEADER_SIZE]; omega)
  generalize hbuf : Buffer.resize writeBuffer (PACKET_HEADER_SIZE + body.length) 0 = buf
  have hlen : buf.length = PACKET_HEADER_SIZE + body.length := by
    rw [← hbuf, Buffer.length_resize]
  have hsplit : encodeHeader buf body.length =
      header body.length ++ buf.drop PACKET_HEADER_SIZE := by
    conv_lhs => rw [← List.take_append_drop PACKET_HEADER_SIZE buf]
    exact encodeHeader_append (by rw [List.length_take, hlen]; omega) _ _
  have htake : (encodeHeader buf body.length).take PACKET_HEADER_SIZE = header body.length := by
    rw [hsplit]
    exact List.take_left' (length_header _)
  simp only [writeFrame, hn, hbuf]
  rw [Buffer.overwrite_tail (by rw [length_encodeHeader, hlen]), htake, frame]

theorem parseSize_frame {n : Nat} (h : n < 2 ^ 31) : parseSize (PACKET_HEADER_SIZE + n) = n := by
  have hcancel : ((PACKET_HEADER_SIZE + n : Nat) : Int) - (PACKET_HEADER_SIZE : Nat) = n := by
    omega
  rw [parseSize, i32, i32, Int.bmod_sub_bmod, hcancel]
  exact Int.bmod_eq_of_le (by omega) (by omega)

/-- **What the receiver parses is the body that was framed.** -/
theorem parseRegion_frame {body : Bytes} (h : body.length < 2 ^ 31) :
    parseRegion (frame body) = body := by
  rw [parseRegion, length_frame, parseSize_frame h, frame, List.drop_left' (length_header _)]
  simp

/-! ## Frames within a prefix of a stream -/

@[simp] theorem stream_nil : stream [] = [] := rfl

@[simp] theorem stream_cons (b : Bytes) (bs : List Bytes) :
    stream (b :: bs) = frame b ++ stream bs := rfl

theorem stream_append (as bs : List Bytes) : stream (as ++ bs) = stream as ++ stream bs := by
  simp [stream]

/-- The bodies whose frames end within the first `p` bytes of the stream. -/
def completeBodies : Nat → List Bytes → List Bytes
  | _, [] => []
  | p, b :: bs =>
    if (frame b).length ≤ p then b :: completeBodies (p - (frame b).length) bs else []

theorem completeBodies_eq {p : Nat} {done : List Bytes} {rest : List Bytes}
    (hdone : (stream done).length ≤ p)
    (hrest : ∀ b bs, rest = b :: bs → p < (stream done).length + (frame b).length) :
    completeBodies p (done ++ rest) = done := by
  induction done generalizing p with
  | nil =>
    cases rest with
    | nil => rfl
    | cons b bs =>
      have hb := hrest b bs rfl
      rw [stream_nil, List.length_nil, Nat.zero_add] at hb
      rw [List.nil_append, completeBodies, if_neg (Nat.not_le.mpr hb)]
  | cons d done ih =>
    simp only [stream_cons, List.length_append] at hdone hrest
    rw [List.cons_append, completeBodies, if_pos (by omega),
      ih (by omega) (fun b bs h => by have := hrest b bs h; omega)]

theorem completeBodies_prefix (p : Nat) (bodies : List Bytes) :
    completeBodies p bodies <+: bodies := by
  induction bodies generalizing p with
  | nil => exact List.nil_prefix
  | cons b bs ih =>
    rw [completeBodies]
    split
    · exact List.cons_prefix_cons.mpr ⟨rfl, ih _⟩
    · exact List.nil_prefix

theorem completeBodies_length_le (p : Nat) (bodies : List Bytes) :
    (stream (completeBodies p bodies)).length ≤ p := by
  induction bodies generalizing p with
  | nil => simp [completeBodies]
  | cons b bs ih =>
    rw [completeBodies]
    split
    · have := ih (p - (frame b).length)
      rw [stream_cons, List.length_append]
      omega
    · simp

theorem completeBodies_all (bodies : List Bytes) :
    completeBodies (stream bodies).length bodies = bodies := by
  have hall : completeBodies (stream bodies).length (bodies ++ []) = bodies :=
    completeBodies_eq (Nat.le_refl _) (fun b bs h => by cases h)
  rwa [List.append_nil] at hall

end IMonPlatform.Framing
