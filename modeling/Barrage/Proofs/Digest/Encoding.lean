import Barrage.Digest

/-!
# Encodings that can be taken apart

A fingerprint is taken of many encodings, one behind the other. Each of them is delimited
(`Encoding.Delimited`): from the bytes alone one can tell which thing was written and where its
encoding ends, as long as it is a thing of the width that the encoding has. So two rows of encodings
that give the same bytes are equal one by one. Words have a fixed number of bytes, texts have their
length in front, and a list is delimited once its length is known (`Delimited.list_split`).
-/

namespace Barrage.Encoding

/-- How many numbers there are of so many bytes. -/
def capacity : Nat → Nat
  | 0 => 1
  | count + 1 => 256 * capacity count

/-- Equal bytes are those of equal numbers. -/
theorem littleEndian_inj (count : Nat) {m n : Nat} (hm : m < capacity count)
    (hn : n < capacity count) (h : littleEndian count m = littleEndian count n) : m = n := by
  induction count generalizing m n with
  | zero =>
    rw [capacity, Nat.lt_one_iff] at hm hn
    rw [hm, hn]
  | succ count ih =>
    rw [littleEndian, littleEndian, List.cons.injEq] at h
    rw [capacity] at hm hn
    have hhigh := ih (Nat.div_lt_of_lt_mul hm) (Nat.div_lt_of_lt_mul hn) h.2
    have hlow : m % 256 = n % 256 := by
      have hbyte := congrArg UInt8.toNat h.1
      rw [UInt8.toNat_ofNat', UInt8.toNat_ofNat'] at hbyte
      omega
    rw [← Nat.div_add_mod m 256, ← Nat.div_add_mod n 256, hhigh, hlow]

variable {α : Type} {enc : α → List UInt8} {ok : α → Prop}

/-- The things that are `ok` can be told from the bytes of their encodings, whatever stands behind
these. -/
structure Delimited (enc : α → List UInt8) (ok : α → Prop) : Prop where
  split : ∀ {x y : α} {a b : List UInt8}, ok x → ok y → enc x ++ a = enc y ++ b → x = y ∧ a = b

/-- Encodings of one length are delimited if they are different for different things. -/
theorem Delimited.of_length {count : Nat} (hlength : ∀ x, (enc x).length = count)
    (hinj : ∀ {x y}, ok x → ok y → enc x = enc y → x = y) : Delimited enc ok where
  split {x y a b} hx hy h := by
    obtain ⟨henc, hrest⟩ := List.append_inj h ((hlength x).trans (hlength y).symm)
    exact ⟨hinj hx hy henc, hrest⟩

/-- Numbers that fit four bytes can be told from the bytes, whatever stands behind. -/
theorem delimited_word32 : Delimited word32 (· < 0x100000000) :=
  .of_length (length_littleEndian 4) fun hm hn => littleEndian_inj 4 hm hn

/-- Numbers that fit eight bytes can be told from the bytes. -/
theorem delimited_word64 : Delimited word64 (· < 0x10000000000000000) :=
  .of_length (length_littleEndian 8) fun hm hn => littleEndian_inj 8 hm hn

/-- A machine word of eight bytes always fits them. -/
theorem delimited_uint64 : Delimited (fun w : UInt64 => word64 w.toNat) fun _ => True where
  split {x y _ _} _ _ h := by
    obtain ⟨hword, hrest⟩ := delimited_word64.split x.toNat_lt y.toNat_lt h
    exact ⟨UInt64.toNat.inj hword, hrest⟩

/-- The two truth values have different bytes. -/
theorem delimited_flag : Delimited flag fun _ => True := by
  refine .of_length (fun b => length_littleEndian 1 _) ?_
  intro x y _ _ h
  cases x <;> cases y <;> first | rfl | exact absurd h (by decide)

/-- Signed numbers of thirty-two bits can be told from their remainders. -/
theorem delimited_int32 : Delimited int32 fun i => -0x80000000 ≤ i ∧ i < 0x80000000 where
  split {i j _ _} hi hj h := by
    obtain ⟨hword, hrest⟩ := delimited_word32.split (by omega) (by omega) h
    exact ⟨by omega, hrest⟩

/-- The bytes of an array as a list are those of the array. -/
theorem toList_eq_data (bytes : ByteArray) : bytes.toList = bytes.data.toList := by
  have hloop : ∀ i read, ByteArray.toList.loop bytes i read =
      read.reverse ++ bytes.data.toList.drop i := by
    intro i read
    induction i, read using ByteArray.toList.loop.induct bytes with
    | case1 i read hlt ih =>
      have hlt' : i < bytes.data.toList.length := hlt
      have hget : bytes.get! i = bytes.data.toList[i] := getElem!_pos bytes.data i hlt
      rw [ByteArray.toList.loop, if_pos hlt, ih, List.drop_eq_getElem_cons hlt', hget,
        List.reverse_cons, List.append_assoc]
      rfl
    | case2 i read hge =>
      rw [ByteArray.toList.loop, if_neg hge, List.drop_eq_nil_of_le (Nat.le_of_not_lt hge),
        List.append_nil]
  rw [ByteArray.toList, hloop]
  rfl

/-- A text stands behind its length, so its end is known. -/
theorem delimited_text : Delimited text fun s => s.utf8ByteSize < 0x100000000 where
  split {s t a b} hs ht h := by
    rw [text, text, List.append_assoc, List.append_assoc] at h
    obtain ⟨hsize, hrest⟩ := delimited_word32.split hs ht h
    rw [toList_eq_data, toList_eq_data] at hrest
    obtain ⟨hbytes, hrest⟩ := List.append_inj hrest hsize
    exact ⟨String.toByteArray_inj.1 (ByteArray.ext (Array.toList_inj.1 hbytes)), hrest⟩

/-- A thing that is there is delimited as without the choice. -/
theorem Delimited.option (h : Delimited enc ok) :
    Delimited (fun o : Option α => (o.map enc).getD []) fun o => ∃ x, o = some x ∧ ok x where
  split := by
    rintro _ _ a b ⟨x, rfl, hx⟩ ⟨y, rfl, hy⟩ heq
    obtain ⟨rfl, hrest⟩ := h.split hx hy heq
    exact ⟨rfl, hrest⟩

/-- A pair is delimited by its parts. -/
theorem Delimited.prod {β : Type} {enc' : β → List UInt8} {ok' : β → Prop} (h : Delimited enc ok)
    (h' : Delimited enc' ok') :
    Delimited (fun p : α × β => enc p.1 ++ enc' p.2) fun p => ok p.1 ∧ ok' p.2 where
  split := by
    rintro ⟨x, x'⟩ ⟨y, y'⟩ a b ⟨hx, hx'⟩ ⟨hy, hy'⟩ heq
    rw [List.append_assoc, List.append_assoc] at heq
    obtain ⟨hfirst, heq⟩ := h.split hx hy heq
    obtain ⟨hsecond, hrest⟩ := h'.split hx' hy' heq
    exact ⟨Prod.ext hfirst hsecond, hrest⟩

/-- Lists of one length are equal member by member. -/
theorem Delimited.list_split (h : Delimited enc ok) {xs ys : List α} {a b : List UInt8}
    (hxs : ∀ x ∈ xs, ok x) (hys : ∀ y ∈ ys, ok y) (hlength : xs.length = ys.length)
    (heq : xs.flatMap enc ++ a = ys.flatMap enc ++ b) : xs = ys ∧ a = b := by
  induction xs generalizing ys with
  | nil =>
    obtain rfl := List.length_eq_zero_iff.1 hlength.symm
    exact ⟨rfl, heq⟩
  | cons x xs ih =>
    cases ys with
    | nil => cases hlength
    | cons y ys =>
      rw [List.flatMap_cons, List.flatMap_cons, List.append_assoc, List.append_assoc] at heq
      obtain ⟨hhead, heq⟩ := h.split (hxs x List.mem_cons_self) (hys y List.mem_cons_self) heq
      obtain ⟨htail, hrest⟩ := ih (fun x hx => hxs x (List.mem_cons_of_mem _ hx))
        (fun y hy => hys y (List.mem_cons_of_mem _ hy)) (Nat.succ.inj hlength) heq
      exact ⟨List.cons_eq_cons.2 ⟨hhead, htail⟩, hrest⟩

end Barrage.Encoding
