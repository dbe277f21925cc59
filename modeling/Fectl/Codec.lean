import Fectl.Basic

/-!
# The transport codec

`TransportCodec` frames the traffic on a worker's pipes: two bytes of length, most significant
first, then that many bytes of JSON. `decode` is modelled with `json::from_slice` as a parameter
`fromSlice` and with the panics of `read_u16` and `split_to` as `none`; `encode` with
`json::to_string` as a parameter.

* `decode_cons_cons`, `decode_short`: what `decode` does, which every other proof cites;
* `decode_isSome`: it never panics, on any buffer;
* `decode_frame`: a whole frame at the head of the buffer is taken off and its payload parsed;
* `decode_frame_wraps`: `encode` writes the length modulo 65536, so the frame of a command that
  serializes to more than 65535 bytes is cut, and the rest is read as frames of its own;
* `decodeAll_append`: what is decoded from a buffer does not depend on the bytes after it;
* `feed_frames`: read in chunks of any sizes, a stream of frames, as `encode` writes them, is
  decoded frame by frame, in order, each frame once its last byte has arrived, and what is left
  is the partial frame.
-/

namespace Fectl.Codec

/-- The bytes of a `BytesMut`. -/
abbrev Bytes := List UInt8

/-- `BigEndian::read_u16`: the first two bytes, most significant first; it panics on fewer. -/
def readU16 : Bytes → Option Nat
  | b₀ :: b₁ :: _ => some (b₀.toNat * 256 + b₁.toNat)
  | _ => none

/-- `BytesMut::split_to`: the first `n` bytes, and the rest; it panics if there are fewer. -/
def splitTo (n : Nat) (src : Bytes) : Option (Bytes × Bytes) :=
  if n ≤ src.length then some (src.take n, src.drop n) else none

/-- `TransportCodec::decode`: what it returns and the buffer it leaves, or `none` where it would
panic. -/
def decode {ε : Type} (fromSlice : Bytes → Except ε WorkerMessage) (src : Bytes) :
    Option (Except ε (Option ProcessMessage) × Bytes) :=
  if src.length < 2 then some (.ok none, src)
  else do
    let size ← readU16 src
    if src.length ≥ size + 2 then do
      let (_, rest) ← splitTo 2 src
      let (buf, rest) ← splitTo size rest
      pure ((fromSlice buf).map fun m => some (.Message m), rest)
    else pure (.ok none, src)

/-- `put_u16::<BigEndian>(n as u16)`: `n` cut to 16 bits, most significant byte first. -/
def putU16 (n : Nat) : Bytes := [UInt8.ofNat (n % 65536 / 256), UInt8.ofNat n]

/-- `TransportCodec::encode`, with `json::to_string` as `toString`: `dst`, then the length of
the serialized command, then the command. -/
def encode (toString : WorkerCommand → Bytes) (msg : WorkerCommand) (dst : Bytes) : Bytes :=
  let msg := toString msg
  dst ++ putU16 msg.length ++ msg

/-- The frame `encode` appends for a payload `p`. -/
def frame (p : Bytes) : Bytes := putU16 p.length ++ p

/-- The frames of a list of payloads, one after another. -/
def frames (ps : List Bytes) : Bytes := (ps.map frame).flatten

@[simp] theorem frames_nil : frames [] = [] := rfl

@[simp] theorem frames_cons (p : Bytes) (ps : List Bytes) :
    frames (p :: ps) = frame p ++ frames ps := rfl

/-- What `decode` hands on for the payload `p`: `Message` of what `fromSlice` parses. -/
def parse {ε : Type} (fromSlice : Bytes → Except ε WorkerMessage) (p : Bytes) :
    Except ε ProcessMessage :=
  (fromSlice p).map .Message

theorem encode_eq_frame (toString : WorkerCommand → Bytes) (msg : WorkerCommand) (dst : Bytes) :
    encode toString msg dst = dst ++ frame (toString msg) := by
  simp [encode, frame]

/-- Commands encoded one after another into `dst` leave it followed by their frames, in order. -/
theorem foldl_encode (toString : WorkerCommand → Bytes) (msgs : List WorkerCommand) (dst : Bytes) :
    msgs.foldl (fun dst msg => encode toString msg dst) dst = dst ++ frames (msgs.map toString) := by
  induction msgs generalizing dst with
  | nil => simp
  | cons msg msgs ih =>
    rw [List.foldl_cons, ih, encode_eq_frame, List.map_cons, frames_cons, List.append_assoc]

/-- The length `read_u16` reads back from `put_u16`, for any length: its low 16 bits. -/
theorem putU16_read_mod (n : Nat) :
    (UInt8.ofNat (n % 65536 / 256)).toNat * 256 + (UInt8.ofNat n).toNat = n % 65536 := by
  show n % 65536 / 256 % 256 * 256 + n % 256 = n % 65536
  omega

/-- The length `read_u16` reads back from `put_u16`. -/
theorem putU16_read (n : Nat) (h : n < 65536) :
    (UInt8.ofNat (n % 65536 / 256)).toNat * 256 + (UInt8.ofNat n).toNat = n :=
  (putU16_read_mod n).trans (Nat.mod_eq_of_lt h)

/-! ## What `decode` does -/

variable {ε : Type} (fromSlice : Bytes → Except ε WorkerMessage)

/-- Fewer than two bytes: nothing to decode. -/
theorem decode_short {src : Bytes} (h : src.length < 2) :
    decode fromSlice src = some (.ok none, src) := by
  simp [decode, h]

/-- Two bytes of length `n`: the frame is taken off if its `n` bytes have all arrived. -/
theorem decode_cons_cons (b₀ b₁ : UInt8) (tl : Bytes) :
    decode fromSlice (b₀ :: b₁ :: tl) =
      if b₀.toNat * 256 + b₁.toNat ≤ tl.length then
        some ((fromSlice (tl.take (b₀.toNat * 256 + b₁.toNat))).map (some ∘ .Message),
          tl.drop (b₀.toNat * 256 + b₁.toNat))
      else some (.ok none, b₀ :: b₁ :: tl) := by
  simp only [decode, List.length_cons, readU16, splitTo]
  split_ifs <;> first | omega | simp_all [Function.comp_def]

/-- `decode` never panics: neither `read_u16` nor a `split_to` is ever out of bounds. -/
theorem decode_isSome (src : Bytes) : (decode fromSlice src).isSome := by
  match src with
  | b₀ :: b₁ :: tl => rw [decode_cons_cons]; split <;> rfl
  | [] | [_] => rw [decode_short _ (by simp)]; rfl

/-- `src` holds no whole frame. -/
def Incomplete : Bytes → Prop
  | b₀ :: b₁ :: tl => tl.length < b₀.toNat * 256 + b₁.toNat
  | _ => True

theorem decode_incomplete {src : Bytes} (h : Incomplete src) :
    decode fromSlice src = some (.ok none, src) := by
  match src, h with
  | b₀ :: b₁ :: tl, h => rw [decode_cons_cons, if_neg (by simp only [Incomplete] at h; omega)]
  | [], _ | [_], _ => exact decode_short _ (by simp)

/-- `decode` returns `Ok(None)` on exactly the buffers with no whole frame, and leaves them as
they are. -/
theorem decode_eq_none_iff {src rest : Bytes} :
    decode fromSlice src = some (.ok none, rest) ↔ Incomplete src ∧ rest = src := by
  refine ⟨fun h => ?_, fun ⟨hp, hr⟩ => by rw [hr]; exact decode_incomplete _ hp⟩
  match src, h with
  | b₀ :: b₁ :: tl, h =>
    rw [decode_cons_cons] at h
    split at h
    · cases h' : fromSlice (tl.take (b₀.toNat * 256 + b₁.toNat)) <;>
        simp [h', Except.map] at h
    · simp only [Option.some.injEq, Prod.mk.injEq] at h
      exact ⟨by simp only [Incomplete]; omega, h.2.symm⟩
  | [], h | [_], h => simp_all [decode_short, Incomplete]

/-- Whatever else `decode` returns, it has taken a whole frame off the buffer. -/
theorem decode_frame_taken {src rest : Bytes} {r : Except ε (Option ProcessMessage)}
    (h : decode fromSlice src = some (r, rest)) (hr : r ≠ .ok none) :
    ∃ b₀ b₁ tl, src = b₀ :: b₁ :: tl ∧ b₀.toNat * 256 + b₁.toNat ≤ tl.length ∧
      r = (fromSlice (tl.take (b₀.toNat * 256 + b₁.toNat))).map (some ∘ .Message) ∧
      rest = tl.drop (b₀.toNat * 256 + b₁.toNat) := by
  match src, h with
  | b₀ :: b₁ :: tl, h =>
    rw [decode_cons_cons] at h
    split at h
    · simp only [Option.some.injEq, Prod.mk.injEq] at h
      exact ⟨b₀, b₁, tl, rfl, ‹_›, h.1.symm, h.2.symm⟩
    · simp only [Option.some.injEq, Prod.mk.injEq] at h; exact absurd h.1.symm hr
  | [], h | [_], h =>
    simp only [decode_short _ (by simp : List.length [] < 2), decode_short _
      (by simp : List.length [_] < 2), Option.some.injEq, Prod.mk.injEq] at h
    exact absurd h.1.symm hr

theorem decode_length_lt {src rest : Bytes} {r : Except ε (Option ProcessMessage)}
    (h : decode fromSlice src = some (r, rest)) (hr : r ≠ .ok none) :
    rest.length < src.length := by
  obtain ⟨b₀, b₁, tl, rfl, -, -, rfl⟩ := decode_frame_taken fromSlice h hr
  simp only [List.length_drop, List.length_cons]; omega

/-- A frame whose bytes have all arrived comes off the buffer whole, whatever follows it. -/
theorem decode_append {x rest : Bytes} {r : Except ε (Option ProcessMessage)}
    (h : decode fromSlice x = some (r, rest)) (hr : r ≠ .ok none) (y : Bytes) :
    decode fromSlice (x ++ y) = some (r, rest ++ y) := by
  obtain ⟨b₀, b₁, tl, rfl, hn, rfl, rfl⟩ := decode_frame_taken fromSlice h hr
  rw [List.cons_append, List.cons_append, decode_cons_cons, if_pos (by simp; omega),
    List.take_append_of_le_length hn, List.drop_append_of_le_length hn]

/-- `decode` on the frame of any payload `p`: `put_u16` keeps only the low 16 bits of its
length, and `decode` takes that many bytes. -/
theorem decode_frame_mod (p rest : Bytes) :
    decode fromSlice (frame p ++ rest) =
      some ((parse fromSlice (p.take (p.length % 65536))).map some,
        p.drop (p.length % 65536) ++ rest) := by
  have hle : p.length % 65536 ≤ p.length := Nat.mod_le _ _
  simp only [frame, putU16, List.cons_append, List.nil_append, decode_cons_cons,
    putU16_read_mod, List.length_append, if_pos (Nat.le_add_right_of_le hle),
    List.take_append_of_le_length hle, List.drop_append_of_le_length hle, parse]
  cases fromSlice (p.take (p.length % 65536)) <;> rfl

/-- `decode` on a frame of a payload of at most 65535 bytes. -/
theorem decode_frame {p : Bytes} (hp : p.length ≤ 65535) (rest : Bytes) :
    decode fromSlice (frame p ++ rest) = some ((parse fromSlice p).map some, rest) := by
  rw [decode_frame_mod, Nat.mod_eq_of_lt (by omega), List.take_length, List.drop_length,
    List.nil_append]

/-- `decode` on what `encode` writes for any command, at the head of the buffer: `put_u16` keeps
only the low 16 bits of the serialized command's length, so `decode` takes that many of its bytes
as the message and leaves the rest in the buffer, to be read as frames of their own. The frame
comes off whole, leaving what followed it, exactly when the command serializes to at most 65535
bytes. -/
theorem decode_frame_wraps (toString : WorkerCommand → Bytes) (msg : WorkerCommand)
    (rest : Bytes) :
    let p := toString msg
    decode fromSlice (encode toString msg [] ++ rest) =
      some ((parse fromSlice (p.take (p.length % 65536))).map some,
        p.drop (p.length % 65536) ++ rest) ∧
    ((decode fromSlice (encode toString msg [] ++ rest)).map Prod.snd = some rest ↔
      p.length ≤ 65535) := by
  dsimp only
  rw [encode_eq_frame, List.nil_append, decode_frame_mod]
  refine ⟨rfl, ?_⟩
  rw [Option.map_some', Option.some.injEq]
  constructor
  · intro h
    have := congrArg List.length h
    simp only [List.length_append, List.length_drop] at this
    omega
  · intro h
    rw [Nat.mod_eq_of_lt (by omega), List.drop_length, List.nil_append]

theorem incomplete_mono {x y : Bytes} (hx : x <+: y) (hy : Incomplete y) : Incomplete x := by
  match x, y, hx, hy with
  | b₀ :: b₁ :: tl, _ :: _ :: tl', hx, hy =>
    simp only [List.cons_prefix_cons] at hx
    obtain ⟨rfl, rfl, h⟩ := hx
    exact Nat.lt_of_le_of_lt h.length_le hy
  | [], _, _, _ | [_], _, _, _ => trivial

/-- A proper prefix of a frame holds no whole frame. -/
theorem incomplete_of_prefix_frame {x p : Bytes} (hp : p.length ≤ 65535) (hx : x <+: frame p)
    (hne : x ≠ frame p) : Incomplete x := by
  match x, hx with
  | b₀ :: b₁ :: tl, hx =>
    simp only [frame, putU16, List.cons_append, List.nil_append, List.cons_prefix_cons] at hx
    obtain ⟨rfl, rfl, h⟩ := hx
    have hlt : tl.length < p.length := by
      rcases Nat.lt_or_ge tl.length p.length with hl | hl
      · exact hl
      · exact absurd (by simp [frame, putU16, h.eq_of_length (Nat.le_antisymm h.length_le hl)])
          hne
    simpa only [Incomplete, putU16_read p.length (by omega)] using hlt
  | [], _ | [_], _ => trivial

/-! ## The read loop -/

/-- The read loop: `decode` called until it returns `Ok(None)`, with everything else it
returned and the buffer it leaves; `none` if it panicked. -/
def decodeAll (src : Bytes) : Option (List (Except ε ProcessMessage) × Bytes) :=
  match _h : decode fromSlice src with
  | some (.ok none, rest) => some ([], rest)
  | some (.ok (some m), rest) => (decodeAll rest).map fun (ms, buf) => (.ok m :: ms, buf)
  | some (.error e, rest) => (decodeAll rest).map fun (ms, buf) => (.error e :: ms, buf)
  | none => none
termination_by src.length
decreasing_by all_goals exact decode_length_lt fromSlice _h (by simp)

/-- Chunks appended to the buffer one at a time, the read loop run after each: everything
decoded, and the buffer left at the end. -/
def feed : List Bytes → Bytes → Option (List (Except ε ProcessMessage) × Bytes)
  | [], buf => some ([], buf)
  | c :: cs, buf => (decodeAll fromSlice (buf ++ c)).bind fun (ms, buf) =>
      (feed cs buf).map fun (ms', buf) => (ms ++ ms', buf)

theorem decodeAll_of_incomplete {src : Bytes} (h : Incomplete src) :
    decodeAll fromSlice src = some ([], src) := by
  rw [decodeAll]; split <;> simp_all [decode_incomplete]

theorem decodeAll_of_decode (x : Except ε ProcessMessage) {src rest : Bytes}
    (h : decode fromSlice src = some (x.map some, rest)) :
    decodeAll fromSlice src = (decodeAll fromSlice rest).map fun (ms, buf) => (x :: ms, buf) := by
  rw [decodeAll]
  split <;> rename_i h' <;> rw [h] at h' <;> cases x <;> simp_all [Except.map]

theorem decodeAll_frame {p : Bytes} (hp : p.length ≤ 65535) (rest : Bytes) :
    decodeAll fromSlice (frame p ++ rest) =
      (decodeAll fromSlice rest).map fun (ms, buf) => (parse fromSlice p :: ms, buf) :=
  decodeAll_of_decode fromSlice _ (decode_frame fromSlice hp rest)

/-- The buffer the read loop leaves holds no whole frame. -/
theorem incomplete_of_decodeAll {src buf : Bytes} {ms : List (Except ε ProcessMessage)}
    (h : decodeAll fromSlice src = some (ms, buf)) : Incomplete buf := by
  induction src using decodeAll.induct fromSlice generalizing ms with
  | case1 x rest hd =>
    obtain ⟨hp, rfl⟩ := (decode_eq_none_iff fromSlice).mp hd
    rw [decodeAll_of_incomplete fromSlice hp] at h
    cases h; exact hp
  | case2 x m rest hd ih =>
    rw [decodeAll_of_decode fromSlice (.ok m) hd] at h
    obtain ⟨⟨ms', buf'⟩, h', he⟩ := Option.map_eq_some'.mp h
    cases he; exact ih h'
  | case3 x e rest hd ih =>
    rw [decodeAll_of_decode fromSlice (.error e) hd] at h
    obtain ⟨⟨ms', buf'⟩, h', he⟩ := Option.map_eq_some'.mp h
    cases he; exact ih h'
  | case4 x hd => exact absurd (decode_isSome fromSlice x) (by simp [hd])

/-- What the read loop decodes from `x` does not depend on the bytes after it: those are
decoded after what `x` left. -/
theorem decodeAll_append (x y : Bytes) :
    decodeAll fromSlice (x ++ y) = (decodeAll fromSlice x).bind fun (ms, rest) =>
      (decodeAll fromSlice (rest ++ y)).map fun (ms', buf) => (ms ++ ms', buf) := by
  induction x using decodeAll.induct fromSlice with
  | case1 x rest hd =>
    obtain ⟨hp, rfl⟩ := (decode_eq_none_iff fromSlice).mp hd
    simp [decodeAll_of_incomplete fromSlice hp]
  | case2 x m rest hd ih =>
    rw [decodeAll_of_decode fromSlice (.ok m) hd,
      decodeAll_of_decode fromSlice (.ok m) (decode_append fromSlice hd (by simp) y), ih]
    cases decodeAll fromSlice rest <;> simp [Function.comp_def]
  | case3 x e rest hd ih =>
    rw [decodeAll_of_decode fromSlice (.error e) hd,
      decodeAll_of_decode fromSlice (.error e) (decode_append fromSlice hd (by simp) y), ih]
    cases decodeAll fromSlice rest <;> simp [Function.comp_def]
  | case4 x hd => exact absurd (decode_isSome fromSlice x) (by simp [hd])

/-- Reading chunk by chunk decodes what reading them all at once does. -/
theorem feed_eq {buf : Bytes} (hbuf : Incomplete buf) (cs : List Bytes) :
    feed fromSlice cs buf = decodeAll fromSlice (buf ++ cs.flatten) := by
  induction cs generalizing buf with
  | nil => simp [feed, decodeAll_of_incomplete fromSlice hbuf]
  | cons c cs ih =>
    rw [feed, List.flatten_cons, ← List.append_assoc, decodeAll_append fromSlice (buf ++ c)]
    cases h : decodeAll fromSlice (buf ++ c) with
    | none => rfl
    | some r => simp only [Option.some_bind, ih (incomplete_of_decodeAll fromSlice h)]

/-- The frames of payloads of at most 65535 bytes, then bytes holding no whole frame, are
decoded into the payloads, parsed, in order, and the buffer is left with the bytes after them. -/
theorem decodeAll_frames {ps : List Bytes} (hps : ∀ p ∈ ps, p.length ≤ 65535) {r : Bytes}
    (hr : Incomplete r) :
    decodeAll fromSlice (frames ps ++ r) = some (ps.map (parse fromSlice), r) := by
  induction ps with
  | nil => exact decodeAll_of_incomplete fromSlice hr
  | cons p ps ih =>
    simp only [List.forall_mem_cons] at hps
    simp [List.append_assoc, decodeAll_frame fromSlice hps.1, ih hps.2]

theorem prefix_append_cases {x a b : Bytes} (h : x <+: a ++ b) :
    x <+: a ∧ x.length < a.length ∨ ∃ x', x = a ++ x' ∧ x' <+: b := by
  rw [List.prefix_iff_eq_take] at h
  rcases Nat.lt_or_ge x.length a.length with hl | hl
  · left
    refine ⟨?_, hl⟩
    rw [h, List.take_append_of_le_length hl.le]
    exact List.take_prefix _ _
  · right
    refine ⟨List.take (x.length - a.length) b, ?_, List.take_prefix _ _⟩
    nth_rewrite 1 [h]
    rw [List.take_append_eq_append_take, List.take_of_length_le hl]

/-- What the read loop decodes from any prefix of a stream of frames: the frames wholly in
the prefix, parsed, in order, leaving the rest of the prefix in the buffer. -/
theorem decodeAll_initial {ps : List Bytes} (hps : ∀ p ∈ ps, p.length ≤ 65535) {r : Bytes}
    (hr : Incomplete r) {x : Bytes} (hx : x <+: frames ps ++ r) :
    ∃ j b, decodeAll fromSlice x = some ((ps.take j).map (parse fromSlice), b) ∧
      x = frames (ps.take j) ++ b := by
  induction ps generalizing x with
  | nil =>
    exact ⟨0, x, decodeAll_of_incomplete fromSlice (incomplete_mono hx hr), by simp⟩
  | cons p ps ih =>
    simp only [List.forall_mem_cons] at hps
    rw [frames_cons, List.append_assoc] at hx
    rcases prefix_append_cases hx with ⟨hxp, hlt⟩ | ⟨x', rfl, hx'⟩
    · refine ⟨0, x, decodeAll_of_incomplete fromSlice ?_, by simp⟩
      exact incomplete_of_prefix_frame hps.1 hxp (fun h => by simp [h] at hlt)
    · obtain ⟨j, b, hd, rfl⟩ := ih hps.2 hx'
      exact ⟨j + 1, b, by simp [decodeAll_frame fromSlice hps.1, hd], by simp⟩

/-- Frames of payloads `ps` of at most 65535 bytes each, then a proper prefix `r` of one more
frame, cut into chunks `cs` of any sizes and read chunk by chunk: the read loop hands exactly
`ps` to the parser, in order, each once, and leaves `r` in the buffer; after any number `m` of
chunks it has decoded the frames wholly within them and nothing else, and kept the rest; a call
of `decode` that returns `Ok(None)` leaves the buffer as it is; and no call of `decode` panics.
The frames are what `encode` writes: commands encoded one after another give the frames of
their serializations, in order. -/
theorem feed_frames (ps : List Bytes) (hps : ∀ p ∈ ps, p.length ≤ 65535) (q r : Bytes)
    (hq : q.length ≤ 65535) (hrq : r <+: frame q) (hne : r ≠ frame q) (cs : List Bytes)
    (hcs : cs.flatten = frames ps ++ r) :
    feed fromSlice cs [] = some (ps.map (parse fromSlice), r) ∧
    (∀ m, ∃ j b, feed fromSlice (cs.take m) [] = some ((ps.take j).map (parse fromSlice), b) ∧
      (cs.take m).flatten = frames (ps.take j) ++ b) ∧
    (∀ src rest, decode fromSlice src = some (.ok none, rest) → rest = src) ∧
    (∀ src, (decode fromSlice src).isSome) ∧
    ∀ (toString : WorkerCommand → Bytes) (msgs : List WorkerCommand),
      msgs.foldl (fun dst msg => encode toString msg dst) [] = frames (msgs.map toString) := by
  have hr := incomplete_of_prefix_frame hq hrq hne
  refine ⟨?_, fun m => ?_, fun src rest h => ((decode_eq_none_iff fromSlice).mp h).2,
    decode_isSome fromSlice, fun toString msgs => foldl_encode toString msgs []⟩
  · rw [feed_eq fromSlice (show Incomplete [] from trivial), List.nil_append, hcs,
      decodeAll_frames fromSlice hps hr]
  · have hpre : (cs.take m).flatten <+: frames ps ++ r := by
      rw [← hcs, ← List.take_append_drop m cs, List.flatten_append, List.take_append_drop]
      exact List.prefix_append _ _
    rw [feed_eq fromSlice (show Incomplete [] from trivial), List.nil_append]
    exact decodeAll_initial fromSlice hps hr hpre

/-- One frame of two bytes, then the first byte of another, cut after the first, third and fifth
bytes. -/
theorem feed_frames_cut :
    feed (fun _ => (.ok .hb : Except Unit WorkerMessage)) [[0], [2, 1], [2, 0]] [] =
      some ([.ok (.Message .hb)], [0]) :=
  (feed_frames _ [[1, 2]] (by decide) [5] [0] (by decide) (by decide) (by decide)
    [[0], [2, 1], [2, 0]] (by decide)).1

end Fectl.Codec
