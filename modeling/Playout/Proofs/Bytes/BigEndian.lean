import Mathlib.Algebra.Group.Nat.Defs
import Playout.Bytes.BigEndian

/-!
# Fields are read as they were written

Writing a number and reading a row of bytes are inverse to each other, up to what the width
cannot hold, and a reader finds a field at the front of what follows it:

    decode_encode : decode (encode k n) = n % 256 ^ k
    encode_decode : encode bs.length (decode bs) = bs
    number_eq_some_iff : (number k).run bs = some (n, rest) ↔ n < 256 ^ k ∧ bs = encode k n ++ rest
-/

namespace Playout.Bytes

theorem encode_succ (k n : Nat) :
    encode (k + 1) n = UInt8.ofNat (n / 256 ^ k) :: encode k n := rfl

theorem decode_cons (b : UInt8) (bs : List UInt8) :
    decode (b :: bs) = b.toNat * 256 ^ bs.length + decode bs := rfl

@[simp] theorem length_encode (k n : Nat) : (encode k n).length = k := by
  induction k with
  | zero => rfl
  | succ k ih => simp [encode_succ, ih]

/-- Reading what was written gives the number back, less what the width cannot hold. -/
theorem decode_encode (k n : Nat) : decode (encode k n) = n % 256 ^ k := by
  induction k with
  | zero => simp [encode, decode, Nat.mod_one]
  | succ k ih =>
    rw [encode_succ, decode_cons, ih, length_encode, Nat.pow_succ, Nat.mod_mul]
    simp [UInt8.toNat_ofNat', Nat.mul_comm, Nat.add_comm]

theorem decode_lt (bs : List UInt8) : decode bs < 256 ^ bs.length := by
  induction bs with
  | nil => simp [decode]
  | cons b bs ih =>
    rw [decode_cons, List.length_cons, Nat.pow_succ]
    have hb : b.toNat < 256 := b.toNat_lt
    have : b.toNat * 256 ^ bs.length ≤ 255 * 256 ^ bs.length :=
      Nat.mul_le_mul_right _ (by omega)
    omega

/-- Writing depends on the low bytes alone. -/
theorem encode_add_mul (k n m : Nat) : encode k (m * 256 ^ k + n) = encode k n := by
  induction k generalizing n m with
  | zero => rfl
  | succ k ih =>
    -- the part above the low bytes stays above when the lowest byte is split off
    have hs : m * 256 ^ (k + 1) + n = m * 256 * 256 ^ k + n := by
      rw [Nat.pow_succ, Nat.mul_assoc, Nat.mul_comm 256]
    have hp : 0 < 256 ^ k := Nat.pow_pos (by decide)
    rw [encode_succ, encode_succ, hs, ih]
    congr 1
    rw [Nat.mul_comm, Nat.mul_add_div hp]
    apply UInt8.toNat_inj.1
    simp only [UInt8.toNat_ofNat']
    omega

/-- Writing what was read gives the bytes back. -/
theorem encode_decode (bs : List UInt8) : encode bs.length (decode bs) = bs := by
  induction bs with
  | nil => rfl
  | cons b bs ih =>
    have hp : 0 < 256 ^ bs.length := Nat.pow_pos (by decide)
    rw [List.length_cons, encode_succ, decode_cons, encode_add_mul, ih]
    congr 1
    rw [Nat.mul_comm, Nat.mul_add_div hp, Nat.div_eq_of_lt (decode_lt bs), Nat.add_zero]
    simp

theorem decode_word16 (w : UInt16) : UInt16.ofNat (decode (word16 w)) = w := by
  have hw : w.toNat < 256 ^ 2 := w.toNat_lt
  rw [word16, decode_encode, Nat.mod_eq_of_lt hw]
  exact UInt16.ofNat_toNat

theorem decode_word32 (w : UInt32) : UInt32.ofNat (decode (word32 w)) = w := by
  have hw : w.toNat < 256 ^ 4 := w.toNat_lt
  rw [word32, decode_encode, Nat.mod_eq_of_lt hw]
  exact UInt32.ofNat_toNat

theorem word16_decode {bs : List UInt8} (h : bs.length = 2) :
    word16 (UInt16.ofNat (decode bs)) = bs := by
  have hlt : decode bs < 2 ^ 16 := by simpa [h] using decode_lt bs
  rw [word16, UInt16.toNat_ofNat_of_lt' hlt, ← h, encode_decode]

theorem word32_decode {bs : List UInt8} (h : bs.length = 4) :
    word32 (UInt32.ofNat (decode bs)) = bs := by
  have hlt : decode bs < 2 ^ 32 := by simpa [h] using decode_lt bs
  rw [word32, UInt32.toNat_ofNat_of_lt' hlt, ← h, encode_decode]

theorem word64_decode {bs : List UInt8} (h : bs.length = 8) :
    word64 (UInt64.ofNat (decode bs)) = bs := by
  have hlt : decode bs < 2 ^ 64 := by simpa [h] using decode_lt bs
  rw [word64, UInt64.toNat_ofNat_of_lt' hlt, ← h, encode_decode]

/-- Eight bytes in front are a word. -/
theorem exists_word64 {bs : List UInt8} (h : 8 ≤ bs.length) :
    ∃ (w : UInt64) (rest : List UInt8), bs = word64 w ++ rest := by
  refine ⟨UInt64.ofNat (decode (bs.take 8)), bs.drop 8, ?_⟩
  rw [word64_decode (List.length_take_of_le h), List.take_append_drop]

/-! ### Rows of words -/

/-- Words one behind the other. -/
def row (ws : List UInt32) : List UInt8 := ws.flatMap word32

@[simp] theorem row_cons (w : UInt32) (ws : List UInt32) : row (w :: ws) = word32 w ++ row ws := rfl

@[simp] theorem length_row (ws : List UInt32) : (row ws).length = 4 * ws.length := by
  induction ws with
  | nil => rfl
  | cons w ws ih => simp [ih, word32]; omega

/-- Every four bytes are a word. -/
theorem exists_row (n : Nat) (bs : List UInt8) (h : bs.length = 4 * n) :
    ∃ ws : List UInt32, ws.length = n ∧ row ws = bs := by
  induction n generalizing bs with
  | zero =>
    have hbs : bs = [] := List.eq_nil_of_length_eq_zero h
    exact ⟨[], rfl, hbs.symm⟩
  | succ n ih =>
    obtain ⟨ws, hlength, hrow⟩ := ih (bs.drop 4) (by rw [List.length_drop, h]; omega)
    have hword : (bs.take 4).length = 4 := by rw [List.length_take, h]; omega
    refine ⟨UInt32.ofNat (decode (bs.take 4)) :: ws, by rw [List.length_cons, hlength], ?_⟩
    rw [row_cons, word32_decode hword, hrow, List.take_append_drop]

theorem row_inj {ws vs : List UInt32} (h : row ws = row vs) : ws = vs := by
  have hlength : ws.length = vs.length := by
    have := congrArg List.length h
    rw [length_row, length_row] at this
    omega
  -- word by word, as all words have the same width
  induction ws generalizing vs with
  | nil => exact (List.eq_nil_of_length_eq_zero hlength.symm).symm
  | cons w ws ih =>
    cases vs with
    | nil => cases hlength
    | cons v vs =>
      obtain ⟨hword, hrest⟩ := List.append_inj h (by simp [word32])
      rw [ih hrest (Nat.succ.inj hlength), ← decode_word32 w, hword, decode_word32]

/-! ### Readers -/

namespace Reader

theorem bytes_append (a b : List UInt8) : (bytes a.length).run (a ++ b) = some (a, b) := by
  simp [bytes, StateT.run]

section

variable {α β : Type} {bs rest : List UInt8}

/-- Two readers take one part each. -/
theorem bind_eq_some_iff {x : Reader α} {f : α → Reader β} {b : β} :
    (x >>= f).run bs = some (b, rest) ↔
      ∃ a middle, x.run bs = some (a, middle) ∧ (f a).run middle = some (b, rest) := by
  rw [StateT.run_bind]
  constructor
  · intro h
    obtain ⟨⟨a, middle⟩, hx, hf⟩ := Option.bind_eq_some_iff.mp h
    exact ⟨a, middle, hx, hf⟩
  · intro ⟨a, middle, hx, hf⟩
    exact Option.bind_eq_some_iff.mpr ⟨(a, middle), hx, hf⟩

theorem pure_eq_some_iff {a b : α} :
    (pure a : Reader α).run bs = some (b, rest) ↔ a = b ∧ bs = rest := by
  rw [StateT.run_pure, ← Prod.mk.injEq]
  exact Option.some_inj

theorem bytes_eq_some_iff {k : Nat} {field : List UInt8} :
    (bytes k).run bs = some (field, rest) ↔ field.length = k ∧ bs = field ++ rest := by
  constructor
  · intro h
    unfold bytes StateT.run at h
    dsimp only at h
    split at h
    · next hle =>
      cases h
      exact ⟨List.length_take_of_le hle, (List.take_append_drop k bs).symm⟩
    · cases h
  · intro ⟨hlength, hbs⟩
    rw [← hlength, hbs]
    exact bytes_append field rest

/-- A number is read if and only if it was written, and nothing is left over. -/
theorem number_eq_some_iff {k n : Nat} :
    (number k).run bs = some (n, rest) ↔ n < 256 ^ k ∧ bs = encode k n ++ rest := by
  unfold number
  rw [bind_eq_some_iff]
  constructor
  -- what is read decodes to `n`, so it is what writing `n` gives
  · intro ⟨field, middle, hfield, hpure⟩
    obtain ⟨rfl, rfl⟩ := pure_eq_some_iff.mp hpure
    obtain ⟨rfl, rfl⟩ := bytes_eq_some_iff.mp hfield
    rw [encode_decode]
    exact ⟨decode_lt field, rfl⟩
  · intro ⟨hlt, hbs⟩
    refine ⟨encode k n, rest, bytes_eq_some_iff.mpr ⟨length_encode k n, hbs⟩, ?_⟩
    rw [decode_encode, Nat.mod_eq_of_lt hlt]
    rfl

/-- A value that is sent as a number is read if and only if its number was written. -/
theorem map_number_eq_some_iff {k : Nat} {value : Nat → α} {toNat : α → Nat} {w : α}
    (hlt : toNat w < 256 ^ k) (hvalue : value (toNat w) = w)
    (htoNat : ∀ n < 256 ^ k, toNat (value n) = n) :
    (do return value (← number k) : Reader α).run bs = some (w, rest) ↔
      bs = encode k (toNat w) ++ rest := by
  rw [bind_eq_some_iff]
  constructor
  · intro ⟨n, middle, hnumber, hpure⟩
    obtain ⟨rfl, rfl⟩ := pure_eq_some_iff.mp hpure
    obtain ⟨hn, rfl⟩ := number_eq_some_iff.mp hnumber
    rw [htoNat n hn]
  · intro hbs
    refine ⟨toNat w, rest, number_eq_some_iff.mpr ⟨hlt, hbs⟩, ?_⟩
    rw [hvalue]
    rfl

theorem word8_eq_some_iff {w : UInt8} : word8.run bs = some (w, rest) ↔ bs = w :: rest := by
  have hone : encode 1 w.toNat = [w] := by
    rw [encode_succ, Nat.pow_zero, Nat.div_one, UInt8.ofNat_toNat]
    rfl
  rw [← List.singleton_append, ← hone]
  exact map_number_eq_some_iff w.toNat_lt UInt8.ofNat_toNat fun _ hn => UInt8.toNat_ofNat_of_lt' hn

theorem rest_eq_some_iff {all : List UInt8} :
    Reader.rest.run bs = some (all, rest) ↔ bs = all ∧ rest = [] := by
  rw [eq_comm (a := rest), ← Prod.mk.injEq]
  exact Option.some_inj

theorem word16_eq_some_iff {w : UInt16} :
    word16.run bs = some (w, rest) ↔ bs = Bytes.word16 w ++ rest :=
  map_number_eq_some_iff w.toNat_lt UInt16.ofNat_toNat fun _ hn => UInt16.toNat_ofNat_of_lt' hn

theorem word32_eq_some_iff {w : UInt32} :
    word32.run bs = some (w, rest) ↔ bs = Bytes.word32 w ++ rest :=
  map_number_eq_some_iff w.toNat_lt UInt32.ofNat_toNat fun _ hn => UInt32.toNat_ofNat_of_lt' hn

theorem word64_eq_some_iff {w : UInt64} :
    word64.run bs = some (w, rest) ↔ bs = Bytes.word64 w ++ rest :=
  map_number_eq_some_iff w.toNat_lt UInt64.ofNat_toNat fun _ hn => UInt64.toNat_ofNat_of_lt' hn

end

end Reader

/-! ### Builders -/

namespace Builder

variable {ε : Type}

/-- The next part is written behind the one before. -/
theorem run_bind {x : Builder ε Unit} {buffer written : List UInt8}
    (h : x.run buffer = .ok () written) (next : Unit → Builder ε Unit) :
    (x >>= next).run buffer = (next ()).run written := by
  have hx : x buffer = .ok () written := h
  show EStateM.bind x next buffer = next () written
  rw [EStateM.bind, hx]

@[simp] theorem run_put (bytes buffer : List UInt8) :
    (put bytes : Builder ε Unit).run buffer = .ok () (buffer ++ bytes) := rfl

@[simp] theorem run_put_bind (bytes buffer : List UInt8) (next : Unit → Builder ε Unit) :
    (put bytes >>= next).run buffer = (next ()).run (buffer ++ bytes) :=
  run_bind (run_put bytes buffer) next

@[simp] theorem run_get_bind (buffer : List UInt8) (next : List UInt8 → Builder ε Unit) :
    (get >>= next).run buffer = (next buffer).run buffer := rfl

@[simp] theorem run_modify_bind (change : List UInt8 → List UInt8) (buffer : List UInt8)
    (next : Unit → Builder ε Unit) :
    (modify change >>= next).run buffer = (next ()).run (change buffer) :=
  run_bind rfl next

/-- The bytes in place `front.length` are written over, and what is before and behind them stays. -/
theorem run_overwrite (front back : List UInt8) {old new : List UInt8}
    (h : old.length = new.length) :
    (overwrite front.length new : Builder ε Unit).run (front ++ (old ++ back)) =
      .ok () (front ++ (new ++ back)) := by
  have hback : (front ++ (old ++ back)).drop (front.length + new.length) = back := by
    rw [← List.drop_drop, List.drop_left, ← h, List.drop_left]
  have hrun : (overwrite front.length new : Builder ε Unit).run (front ++ (old ++ back)) =
      .ok () ((front ++ (old ++ back)).take front.length ++ new ++
        (front ++ (old ++ back)).drop (front.length + new.length)) := rfl
  rw [hrun, hback, List.take_left, List.append_assoc]

end Builder

end Playout.Bytes
