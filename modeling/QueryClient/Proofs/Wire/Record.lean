/-
  QueryClient/Proofs/Wire/Record.lean
  ===================================
  **Numbers and keys come back.** What a reader makes of the bytes written for it is
  stated for any bytes behind them, so that readers in a row can be put together
  (`Reads.bind`).

  A number of variable length is read with the room for ten bytes, the last of them for
  one bit; numbers below 2^64 are exactly those that need no more (`reads_varint`).
-/
import Mathlib.Algebra.Group.Nat.Defs
import QueryClient.Wire.Record

namespace QueryClient.Wire

/-! ### Readers and the bytes that they take -/

/-- The reader takes these bytes and yields the value, whatever follows the bytes. -/
def Reads {α : Type} (r : Reader α) (bs : Bytes) (a : α) : Prop :=
  ∀ rest, r (bs ++ rest) = .ok (a, rest)

variable {α β : Type}

theorem reads_pure (a : α) : Reads (pure a) [] a := by
  intro rest
  rfl

theorem Reads.bind {r : Reader α} {f : α → Reader β} {bs cs : Bytes} {a : α} {b : β}
    (hr : Reads r bs a) (hf : Reads (f a) cs b) : Reads (r >>= f) (bs ++ cs) b := by
  intro rest
  change (r (bs ++ cs ++ rest) >>= fun p => f p.1 p.2) = _
  rw [List.append_assoc, hr]
  exact hf rest

/-- A reader behind which nothing is read any more. -/
theorem Reads.bind_pure {r : Reader α} {f : α → Reader β} {bs : Bytes} {a : α} {b : β}
    (hr : Reads r bs a) (hf : Reads (f a) [] b) : Reads (r >>= f) bs b := by
  have hboth := hr.bind hf
  rw [List.append_nil] at hboth
  exact hboth

theorem Reads.discard {r : Reader α} {bs : Bytes} {a : α} (hr : Reads r bs a) :
    Reads (discard r) bs () := by
  change Reads (r >>= fun _ => pure ()) bs ()
  exact hr.bind_pure (reads_pure ())

theorem reads_takeBytes (bs : Bytes) : Reads (takeBytes bs.length) bs bs := by
  intro rest
  have hlength : ¬(bs ++ rest).length < bs.length := by
    rw [List.length_append]
    omega
  rw [takeBytes, if_neg hlength, List.take_left, List.drop_left]

/-! ### Numbers of variable length -/

theorem varint_ne_nil (n : Nat) : varint n ≠ [] := by
  rw [varint]
  split
  · exact List.cons_ne_nil _ _
  · exact List.cons_ne_nil _ _

/-- Room for one byte more is room for seven bits more; the last byte holds one bit. -/
theorem two_pow_room (room : Nat) : 2 ^ (7 * (room + 1) + 1) = 128 * 2 ^ (7 * room + 1) := by
  rw [Nat.mul_succ, Nat.add_right_comm, Nat.pow_add, Nat.mul_comm]

theorem varintFrom_varint {room n : Nat} (h : n < 2 ^ (7 * room + 1)) (rest : Bytes) :
    varintFrom (room + 1) (varint n ++ rest) = .ok (n, rest) := by
  induction room generalizing n with
  | zero =>
    have hcases : n = 0 ∨ n = 1 := by omega
    rcases hcases with rfl | rfl
    · rw [varint]
      rfl
    · rw [varint]
      rfl
  | succ room ih =>
    rw [varint]
    by_cases hsmall : n < 128
    · have hbyte : UInt8.ofNat n < 128 := by
        rw [UInt8.lt_iff_toNat_lt, UInt8.toNat_ofNat']
        change n % 256 < 128
        omega
      rw [if_pos hsmall, List.singleton_append, varintFrom, if_pos hbyte,
        if_neg (fun hlast => absurd hlast.1 room.succ_ne_zero), UInt8.toNat_ofNat',
        Nat.mod_eq_of_lt (Nat.lt_trans hsmall (by decide))]
    · have hvalue : (UInt8.ofNat (n % 128 + 128)).toNat = n % 128 + 128 := by
        rw [UInt8.toNat_ofNat']
        omega
      have hbyte : ¬UInt8.ofNat (n % 128 + 128) < 128 := by
        rw [UInt8.lt_iff_toNat_lt, hvalue]
        exact Nat.not_lt.mpr (Nat.le_add_left 128 _)
      have hrest : n / 128 < 2 ^ (7 * room + 1) := by
        rw [two_pow_room] at h
        exact Nat.div_lt_of_lt_mul h
      rw [if_neg hsmall, List.cons_append, varintFrom, if_neg hbyte, ih hrest]
      simp only [hvalue]
      congr 2
      omega

theorem reads_varint {n : Nat} (h : n < 2 ^ 64) : Reads readVarint (varint n) n := by
  intro rest
  exact varintFrom_varint h rest

theorem length_varint (n : Nat) : (varint n).length = varintSize n := by
  induction n using varint.induct with
  | case1 n hsmall =>
    rw [varint, if_pos hsmall, varintSize]
    by_cases hzero : n = 0
    · rw [hzero]
      rfl
    · have hlog : n.log2 < 7 := (Nat.log2_lt hzero).mpr hsmall
      rw [Nat.div_eq_of_lt hlog]
      rfl
  | case2 n hlarge ih =>
    have hlog : n.log2 = (n / 128).log2 + 7 := by
      have hquotient : n / 128 ≠ 0 := by omega
      refine (Nat.log2_eq_iff (by omega)).mpr ⟨?_, ?_⟩
      · have hlow := Nat.log2_self_le hquotient
        rw [Nat.pow_add]
        omega
      · have hhigh := Nat.lt_log2_self (n := n / 128)
        rw [Nat.add_right_comm, Nat.pow_add]
        omega
    rw [varint, if_neg hlarge, List.length_cons, ih, varintSize, varintSize, hlog,
      Nat.add_div_right _ (by decide)]

/-! ### Keys -/

/-- A field number that a key can carry. -/
def IsFieldNumber (n : Nat) : Prop := 0 < n ∧ n < 2 ^ 29

instance (n : Nat) : Decidable (IsFieldNumber n) :=
  inferInstanceAs (Decidable (0 < n ∧ n < 2 ^ 29))

theorem Key.bytes_ne_nil (k : Key) : k.bytes ≠ [] := varint_ne_nil _

theorem Key.length_bytes (k : Key) : k.bytes.length = k.size := length_varint _

theorem WireType.ofCode?_code (type : WireType) : ofCode? type.code = some type := by
  cases type <;> rfl

/-- A key is read from any bytes that are read as its number. -/
theorem reads_key_of_varint {k : Key} (h : IsFieldNumber k.field) {bs : Bytes}
    (hbs : Reads readVarint bs k.value) : Reads readKey bs k := by
  obtain ⟨hpos, hlt⟩ := h
  have hcode : k.type.code < 8 := by cases k.type <;> decide
  have hvalue : k.value = k.field * 8 + k.type.code := rfl
  have hmax : ¬maxKey < k.value := by
    rw [maxKey]
    omega
  have htype : WireType.ofCode? (k.value % 8) = some k.type := by
    have hmod : k.value % 8 = k.type.code := by omega
    rw [hmod, WireType.ofCode?_code]
  have hfield : k.value / 8 = k.field := by omega
  apply hbs.bind_pure
  rw [if_neg hmax, htype]
  simp only [hfield, if_neg (Nat.pos_iff_ne_zero.mp hpos)]
  exact reads_pure k

theorem reads_key {k : Key} (h : IsFieldNumber k.field) : Reads readKey k.bytes k := by
  have hcode : k.type.code < 8 := by cases k.type <;> decide
  have hvalue : k.value = k.field * 8 + k.type.code := rfl
  have hlt := h.2
  exact reads_key_of_varint h (reads_varint (n := k.value) (by omega))

end QueryClient.Wire
