import AuthGate.Input.Body
import AuthGate.Proofs.Proto.Scalar

set_option autoImplicit false

/-! # Frames of gRPC bodies

What the first frame of a body is read as, for all bytes: a message exactly if the body begins with
its frame (`Frame.ofBytes_eq_message_iff`), cut exactly if it is less than a frame
(`Frame.ofBytes_eq_cut_iff`). Read by positions, a frame is the same, and no position is beyond the
end of the bytes (`Frame.at?_eq`). -/

namespace AuthGate.Input

/-! ## Lengths -/

/-- A number in four bytes, the most significant first. -/
def lengthBytes (n : Nat) : List UInt8 := (Proto.toLittleEndian 4 n).reverse

theorem length_lengthBytes (n : Nat) : (lengthBytes n).length = 4 := by
  rw [lengthBytes, List.length_reverse, Proto.length_toLittleEndian]

theorem bigEndian_eq_littleEndian (bs : List UInt8) :
    bigEndian bs = Proto.littleEndian bs.reverse := by
  rw [bigEndian, Proto.littleEndian, List.foldr_reverse]
  congr 1
  funext n b
  omega

theorem bigEndian_lengthBytes {n : Nat} (h : n < 2 ^ 32) : bigEndian (lengthBytes n) = n := by
  rw [bigEndian_eq_littleEndian, lengthBytes, List.reverse_reverse]
  exact Proto.littleEndian_toLittleEndian h

theorem lengthBytes_bigEndian {bs : List UInt8} (h : bs.length = 4) :
    lengthBytes (bigEndian bs) = bs := by
  have hlength : bs.reverse.length = 4 := by rw [List.length_reverse, h]
  rw [bigEndian_eq_littleEndian, lengthBytes, ← hlength, Proto.toLittleEndian_littleEndian,
    List.reverse_reverse]

theorem bigEndian_lt {bs : List UInt8} (h : bs.length = 4) : bigEndian bs < 2 ^ 32 := by
  have hlength : bs.reverse.length = 4 := by rw [List.length_reverse, h]
  have hlt := Proto.littleEndian_lt bs.reverse
  rwa [← bigEndian_eq_littleEndian, hlength] at hlt

/-! ## Frames -/

/-- A message in a frame: no flag, the length and the message. -/
def frame (payload : List UInt8) : List UInt8 := 0 :: (lengthBytes payload.length ++ payload)

theorem length_frame (payload : List UInt8) : (frame payload).length = frameHeader + payload.length := by
  rw [frame, List.length_cons, List.length_append, length_lengthBytes, frameHeader]
  omega

/-- Bytes that are long enough are a flag, four bytes of length, and the rest. -/
theorem exists_header {bs : List UInt8} (h : frameHeader ≤ bs.length) :
    ∃ flag header payload, header.length = 4 ∧ bs = flag :: (header ++ payload) := by
  match bs, h with
  | flag :: a :: b :: c :: d :: payload, _ => exact ⟨flag, [a, b, c, d], payload, rfl, rfl⟩

variable {bs header payload rest : List UInt8} {flag : UInt8}

/-- Pieces of the same length at the start of two texts are compared first. -/
theorem append_prefix_append_iff {as bs cs ds : List UInt8} (h : as.length = cs.length) :
    as ++ bs <+: cs ++ ds ↔ as = cs ∧ bs <+: ds := by
  constructor
  · rintro ⟨after, heq⟩
    rw [List.append_assoc] at heq
    obtain ⟨hstart, hrest⟩ := List.append_inj heq h
    exact ⟨hstart, after, hrest⟩
  · rintro ⟨rfl, hrest⟩
    exact (List.prefix_append_right_inj as).2 hrest

theorem frame_prefix_iff (h : header.length = 4) :
    frame payload <+: flag :: (header ++ rest) ↔
      flag = 0 ∧ header = lengthBytes payload.length ∧ payload <+: rest := by
  rw [frame, List.cons_prefix_cons, append_prefix_append_iff (by rw [h, length_lengthBytes]),
    eq_comm (a := 0), eq_comm (a := header)]

theorem prefix_frame_iff (h : header.length = 4) :
    flag :: (header ++ rest) <+: frame payload ↔
      flag = 0 ∧ header = lengthBytes payload.length ∧ rest <+: payload := by
  rw [frame, List.cons_prefix_cons, append_prefix_append_iff (by rw [h, length_lengthBytes])]

namespace Frame

theorem ofBytes_header (flag : UInt8) (h : header.length = 4) (rest : List UInt8) :
    ofBytes (flag :: (header ++ rest)) =
      if flag ≠ 0 then .compressed
      else if rest.length < bigEndian header then .cut
      else .message (rest.take (bigEndian header)) := by
  match header, h with
  | [a, b, c, d], _ => simp [ofBytes]

theorem ofBytes_short (h : bs.length < frameHeader) : ofBytes bs = .short := by
  unfold ofBytes
  split
  · simp [frameHeader] at h
    omega
  · rfl

theorem ofBytes_eq_short_iff : ofBytes bs = .short ↔ bs.length < frameHeader := by
  refine ⟨fun h => Nat.lt_of_not_le fun hlong => ?_, ofBytes_short⟩
  obtain ⟨flag, header, rest, hheader, rfl⟩ := exists_header hlong
  rw [ofBytes_header flag hheader] at h
  split at h
  · cases h
  · split at h <;> cases h

/-- Any flag but zero says that the message is compressed. -/
theorem ofBytes_eq_compressed_iff :
    ofBytes bs = .compressed ↔ frameHeader ≤ bs.length ∧ ∃ flag ∈ bs.head?, flag ≠ 0 := by
  by_cases hlong : frameHeader ≤ bs.length
  · obtain ⟨flag, header, rest, hheader, rfl⟩ := exists_header hlong
    rw [ofBytes_header flag hheader]
    simp only [hlong, true_and, List.head?_cons, Option.mem_some_iff, exists_eq_left']
    by_cases hflag : flag = 0
    · simp only [hflag, ne_eq, not_true, if_false, iff_false]
      split <;> simp
    · simp [hflag]
  · simp [ofBytes_short (Nat.lt_of_not_le hlong), hlong]

/-- Bytes are read as a message exactly if they begin with its frame. -/
theorem ofBytes_eq_message_iff :
    ofBytes bs = .message payload ↔ payload.length < 2 ^ 32 ∧ frame payload <+: bs := by
  by_cases hlong : frameHeader ≤ bs.length
  · obtain ⟨flag, header, rest, hheader, rfl⟩ := exists_header hlong
    rw [ofBytes_header flag hheader, frame_prefix_iff hheader]
    constructor
    · intro h
      split at h
      · cases h
      · next hflag =>
        split at h
        · cases h
        · next hrest =>
          obtain rfl := Frame.message.inj h
          have hlength : (rest.take (bigEndian header)).length = bigEndian header :=
            List.length_take_of_le (Nat.le_of_not_lt hrest)
          rw [hlength, lengthBytes_bigEndian hheader]
          exact ⟨bigEndian_lt hheader, Decidable.of_not_not hflag, rfl, List.take_prefix _ _⟩
    · rintro ⟨hsize, rfl, rfl, hrest⟩
      rw [bigEndian_lengthBytes hsize, if_neg (by simp), if_neg (Nat.not_lt.2 hrest.length_le),
        List.prefix_iff_eq_take.1 hrest]
      simp
  · have hshort := Nat.lt_of_not_le hlong
    simp only [ofBytes_short hshort, reduceCtorEq, false_iff, not_and]
    intro _ hprefix
    have hlength := hprefix.length_le
    rw [length_frame] at hlength
    omega

/-- Bytes are read as part of a frame exactly if they are one that lacks some of the message. -/
theorem ofBytes_eq_cut_iff : ofBytes bs = .cut ↔
    frameHeader ≤ bs.length ∧ ∃ payload : List UInt8, payload.length < 2 ^ 32 ∧
      bs <+: frame payload ∧ bs ≠ frame payload := by
  by_cases hlong : frameHeader ≤ bs.length
  · obtain ⟨flag, header, rest, hheader, rfl⟩ := exists_header hlong
    rw [ofBytes_header flag hheader]
    constructor
    · intro h
      split at h
      · cases h
      · next hflag =>
        split at h
        · next hrest =>
          -- any bytes will do for those that are missing
          have hpadded : (rest.rightpad (bigEndian header) 0).length = bigEndian header := by
            rw [List.length_rightpad, Nat.max_eq_left (Nat.le_of_lt hrest)]
          refine ⟨hlong, rest.rightpad (bigEndian header) 0, ?_, ?_, fun heq => ?_⟩
          · rw [hpadded]
            exact bigEndian_lt hheader
          · rw [prefix_frame_iff hheader, hpadded, lengthBytes_bigEndian hheader]
            exact ⟨Decidable.of_not_not hflag, rfl, List.prefix_append _ _⟩
          · have hlength := congrArg List.length heq
            rw [length_frame, hpadded, List.length_cons, List.length_append, hheader,
              frameHeader] at hlength
            omega
        · cases h
    · rintro ⟨-, payload, hsize, hprefix, hne⟩
      obtain ⟨rfl, rfl, hrest⟩ := (prefix_frame_iff hheader).1 hprefix
      have hshorter : rest.length < payload.length :=
        Nat.lt_of_le_of_ne hrest.length_le fun heq => hne (by rw [hrest.eq_of_length heq]; rfl)
      rw [bigEndian_lengthBytes hsize, if_neg (by simp), if_pos hshorter]
  · simp [ofBytes_short (Nat.lt_of_not_le hlong), hlong]

end Frame

/-! ## Reading by position -/

/-- The bytes from one position to before another, if there are as many. -/
def slice? (start stop : Nat) (bs : List UInt8) : Option (List UInt8) :=
  if start ≤ stop ∧ stop ≤ bs.length then some ((bs.take stop).drop start) else none

/-- The first frame, read byte by byte from its position; none if a position is beyond the end. -/
def Frame.at? (bs : List UInt8) : Option Frame :=
  if bs.length < frameHeader then some .short
  else do
    let flag ← bs[0]?
    if flag != 0 then return .compressed
    let a ← bs[1]?
    let b ← bs[2]?
    let c ← bs[3]?
    let d ← bs[4]?
    let payload ← slice? frameHeader bs.length bs
    let n := bigEndian [a, b, c, d]
    if payload.length < n then return .cut
    let message ← slice? 0 n payload
    return .message message

/-- Every position that a frame is read from is there. -/
theorem Frame.at?_eq (bs : List UInt8) : Frame.at? bs = some (Frame.ofBytes bs) := by
  by_cases hlong : frameHeader ≤ bs.length
  · match bs, hlong with
    | flag :: a :: b :: c :: d :: payload, hlong =>
      have hrest : slice? frameHeader (flag :: a :: b :: c :: d :: payload).length
          (flag :: a :: b :: c :: d :: payload) = some payload := by
        rw [slice?, if_pos ⟨hlong, Nat.le_refl _⟩, List.take_length]
        rfl
      rw [at?, if_neg (Nat.not_lt.2 hlong), hrest]
      simp only [List.getElem?_cons_zero, List.getElem?_cons_succ, Option.bind_eq_bind,
        Option.bind_some, ofBytes]
      split
      · rfl
      · split
        · rfl
        · next hmessage =>
          rw [slice?, if_pos ⟨Nat.zero_le _, Nat.not_lt.1 hmessage⟩]
          rfl
  · have hshort := Nat.lt_of_not_le hlong
    rw [at?, if_pos hshort, ofBytes_short hshort]

end AuthGate.Input
