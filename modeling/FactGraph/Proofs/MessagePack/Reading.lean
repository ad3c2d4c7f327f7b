import FactGraph.MessagePack.Value
import Mathlib.Tactic.Ring

/-! What is written can be read, whatever stands behind it, and nothing can be read of what is only
its beginning. Each way to write a value is read by itself, and readings in a row are read one after
the other. -/

namespace FactGraph.MessagePack

variable {α β : Type}

/-- On the bytes, and with anything behind them, the reading gives the value and stops where they
end. On a beginning of the bytes it gives nothing. -/
structure Reads (read : Reading α) (bytes : Bytes) (value : α) : Prop where
  whole (rest : Bytes) : read (bytes ++ rest) = some (value, rest)
  cut (front : Bytes) : front <+: bytes → front ≠ bytes → read front = none

namespace Reads

theorem pure (value : α) : Reads (fun bytes => some (value, bytes)) [] value where
  whole _ := rfl
  cut _ short other := absurd (List.prefix_nil.1 short) other

theorem bind {read : Reading α} {next : α × Bytes → Option (β × Bytes)} {bytes more : Bytes}
    {value : α} {answer : β} (first : Reads read bytes value)
    (second : Reads (fun rest => next (value, rest)) more answer) :
    Reads (fun input => read input >>= next) (bytes ++ more) answer where
  whole rest := by
    rw [List.append_assoc]
    simp only [first.whole, Option.bind_eq_bind, Option.bind_some, second.whole]
  cut front short other := by
    rcases List.prefix_or_prefix_of_prefix short (List.prefix_append bytes more)
      with inside | ⟨behind, rfl⟩
    · by_cases all : front = bytes
      · subst all
        have left : [] ≠ more := by
          rintro rfl
          exact other (List.append_nil _).symm
        have ended := first.whole []
        rw [List.append_nil] at ended
        simp only [ended, Option.bind_eq_bind, Option.bind_some, second.cut [] List.nil_prefix left]
      · simp only [first.cut front inside all, Option.bind_eq_bind, Option.bind_none]
    · have left : behind ≠ more := by
        rintro rfl
        exact other rfl
      have stopped := second.cut behind ((List.prefix_append_right_inj bytes).1 short) left
      simp only [first.whole, Option.bind_eq_bind, Option.bind_some, stopped]

theorem map {read : Reading α} {bytes : Bytes} {value : α} (found : Reads read bytes value)
    (make : α → β) :
    Reads (fun input => do
      let (found, rest) ← read input
      return (make found, rest)) bytes (make value) := by
  have made : Reads (fun input => read input >>= fun found => some (make found.1, found.2))
      (bytes ++ []) (make value) :=
    found.bind (.pure (make value))
  rwa [List.append_nil] at made

end Reads

theorem reads_takeBytes (bytes : Bytes) : Reads (takeBytes bytes.length) bytes bytes where
  whole rest := by simp [takeBytes]
  cut front short other := by
    have shorter : front.length < bytes.length :=
      Nat.lt_of_le_of_ne short.length_le fun same => other (short.eq_of_length same)
    have less : min bytes.length front.length ≠ bytes.length := by omega
    simp [takeBytes, less]

@[simp] theorem length_bigEndian (count number : Nat) :
    (bigEndian count number).length = count := by
  induction count with
  | zero => rfl
  | succ count ih => rw [bigEndian, List.length_cons, ih]

theorem foldl_bigEndian (count number front : Nat) :
    (bigEndian count number).foldl (fun number byte => number * 256 + byte.toNat) front =
      front * 256 ^ count + number % 256 ^ count := by
  induction count generalizing front with
  | zero => simp [bigEndian, Nat.mod_one]
  | succ count ih =>
    have digit : (UInt8.ofNat (number >>> (8 * count))).toNat = number / 256 ^ count % 256 := by
      simp [Nat.shiftRight_eq_div_pow, Nat.pow_mul]
    rw [bigEndian, List.foldl_cons, ih, digit, Nat.pow_succ, Nat.mod_mul]
    ring

theorem ofBigEndian_bigEndian {count number : Nat} (small : number < 256 ^ count) :
    ofBigEndian (bigEndian count number) = number := by
  rw [ofBigEndian, foldl_bigEndian, Nat.zero_mul, Nat.zero_add, Nat.mod_eq_of_lt small]

theorem reads_takeNumber {width number : Nat} (small : number < 256 ^ width) :
    Reads (takeNumber width) (bigEndian width number) number := by
  have taken := reads_takeBytes (bigEndian width number)
  rw [length_bigEndian] at taken
  have read := taken.map ofBigEndian
  rwa [ofBigEndian_bigEndian small] at read

theorem reads_sized (head : Nat → Head) {width length : Nat} (small : length < 256 ^ width) :
    Reads (sized head width) (bigEndian width length) (head length) :=
  (reads_takeNumber small).map head

theorem reads_readHead {first : UInt8} {bytes : Bytes} {head : Head}
    (next : Reads (headOf first.toNat) bytes head) :
    Reads readHead (first :: bytes) head where
  whole rest := next.whole rest
  cut front short other := by
    rcases front with _ | ⟨byte, front⟩
    · rfl
    · rcases List.cons_prefix_cons.1 short with ⟨rfl, inside⟩
      exact next.cut front inside fun same => other (congrArg _ same)

theorem reads_short {code : Nat} {head : Head} (small : code < UInt8.size)
    (meant : ∀ rest, headOf code rest = some (head, rest)) :
    Reads readHead [UInt8.ofNat code] head := by
  have same : (UInt8.ofNat code).toNat = code := UInt8.toNat_ofNat_of_lt' small
  apply reads_readHead
  rw [same]
  exact ⟨meant, fun front short other => absurd (List.prefix_nil.1 short) other⟩

section

variable {length : Nat}

theorem reads_textHead (small : length < UInt32.size) :
    Reads readHead (textHead length) (.text length) := by
  unfold textHead
  split
  · next short =>
    refine reads_short (show 0xA0 + length < 256 by omega) fun rest => ?_
    unfold headOf
    rw [if_neg (by omega), if_neg (by omega), if_neg (by omega), if_pos (by omega),
      Nat.add_sub_cancel_left]
  split
  · next short => exact reads_readHead (reads_sized .text short)
  split
  · next short => exact reads_readHead (reads_sized .text short)
  · exact reads_readHead (reads_sized .text small)

theorem reads_arrayHead (small : length < UInt32.size) :
    Reads readHead (arrayHead length) (.array length) := by
  unfold arrayHead
  split
  · next short =>
    refine reads_short (show 0x90 + length < 256 by omega) fun rest => ?_
    unfold headOf
    rw [if_neg (by omega), if_neg (by omega), if_pos (by omega), Nat.add_sub_cancel_left]
  split
  · next short => exact reads_readHead (reads_sized .array short)
  · exact reads_readHead (reads_sized .array small)

theorem reads_mapHead (small : length < UInt32.size) :
    Reads readHead (mapHead length) (.map length) := by
  unfold mapHead
  split
  · next short =>
    refine reads_short (show 0x80 + length < 256 by omega) fun rest => ?_
    unfold headOf
    rw [if_neg (by omega), if_pos (by omega), Nat.add_sub_cancel_left]
  split
  · next short => exact reads_readHead (reads_sized .map short)
  · exact reads_readHead (reads_sized .map small)

end

end FactGraph.MessagePack
