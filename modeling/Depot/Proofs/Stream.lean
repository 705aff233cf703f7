import Depot.Storage.Reference

/-!
# Reading streams

A stream is read to its end a piece at a time. One read takes its piece off what the stream yields
(`content_eq`), and leaves less of the stream (`weight_lt_of_pull`), so that reading comes to an
end.
-/

set_option autoImplicit false

namespace Depot.Stream

variable {limit ms : Nat} {s rest : Stream} {bytes : ByteArray} {e : IoError}

/-- What a stream yields is what one read yields, and what the rest of the stream yields. -/
theorem content_eq (limit : Nat) (s : Stream) :
    s.content = match pull limit s with
      | .data bytes rest => (content rest).map (bytes ++ ·)
      | .pause _ rest => content rest
      | .fail e => .error e
      | .finished => .ok .empty := by
  induction s with
  | nil => rfl
  | cons chunk rest ih =>
    cases chunk with
    | pause ms => rfl
    | fail e =>
      rw [content, pull]
      split
      · exact ih
      · rfl
    | data bytes =>
      rw [content, pull]
      split
      · rfl
      · by_cases hsize : bytes.size ≤ limit
        · rw [if_pos hsize]
        · -- the front of a piece that is too large, and its other part as a piece of its own
          have hback : (bytes.extract limit bytes.size).size ≠ 0 := by
            rw [ByteArray.size_extract]
            omega
          have hjoin : bytes.extract 0 limit ++ bytes.extract limit bytes.size = bytes := by
            rw [← ByteArray.extract_eq_extract_append_extract limit (Nat.zero_le _)
              (Nat.le_of_not_le hsize), ByteArray.extract_zero_size]
          rw [if_neg hsize]
          simp only [content, if_neg hback]
          cases content rest with
          | error e => rfl
          | ok more => simp only [Except.map, ← ByteArray.append_assoc, hjoin]

theorem content_ofBytes (bytes : ByteArray) : (ofBytes bytes).content = .ok bytes := by
  rw [ofBytes, content]
  split
  · rename_i hsize
    rw [ByteArray.size_eq_zero_iff.1 hsize]
  · simp [content, Except.map]

/-- How much there is still to be read, pauses and failures included. -/
def weight : Stream → Nat
  | [] => 0
  | .data bytes :: rest => bytes.size + 1 + weight rest
  | _ :: rest => 1 + weight rest

/-- What a read leaves to be read, if it goes on. -/
def Pull.rest? : Pull → Option Stream
  | data _ rest => some rest
  | pause _ rest => some rest
  | _ => none

/-- A read leaves less to be read. -/
theorem weight_lt_of_pull (hlimit : 0 < limit) (h : (pull limit s).rest? = some rest) :
    rest.weight < s.weight := by
  induction s with
  | nil => cases h
  | cons chunk tail ih =>
    cases chunk with
    | pause ms =>
      cases h
      simp only [weight]
      omega
    | fail e =>
      rw [pull] at h
      split at h
      · have hlt := ih h
        simp only [weight]
        omega
      · cases h
    | data bytes =>
      rw [pull] at h
      split at h
      · cases h
      · split at h
        · cases h
          simp only [weight]
          omega
        · cases h
          simp only [weight, ByteArray.size_extract]
          omega

end Depot.Stream
