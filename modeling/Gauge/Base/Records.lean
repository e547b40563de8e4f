import Gauge.Base.Stdio

/-!
Files of fixed-size records, byte by byte.

A file need not be a whole number of records: a write that is cut off leaves the first bytes of
its record, and what is appended behind them is read in other pieces than it was written in.

* `Codec`: the bytes of a value, with codecs for little-endian integers and for structures.
* `records_encodeAll_append`: whole records are read back, whatever follows them.
* `records_grow`: a file that grows keeps its records.
* `records_torn`: behind a torn record, every record is read across two of those written.
* `whileNotEofBytes_fopen`: the reading loop of `Stdio` on the bytes.
-/

namespace Records

variable {α β γ σ : Type*}

/-! ### Codecs -/

/-- The bytes of a value in memory, which are read back for the values that fit. -/
structure Codec (β : Type*) where
  size : ℕ
  encode : β → List UInt8
  decode : List UInt8 → β
  Fits : β → Prop
  size_pos : 0 < size
  length_encode : ∀ r, (encode r).length = size
  decode_encode : ∀ r, Fits r → decode (encode r) = r

attribute [simp] Codec.length_encode

/-- The value of bytes, the least significant one first. -/
def natOfBytes : List UInt8 → ℕ
  | [] => 0
  | b :: bs => b.toNat + 256 * natOfBytes bs

/-- The `n` least significant bytes. -/
def bytesOfNat : ℕ → ℕ → List UInt8
  | 0, _ => []
  | n + 1, v => UInt8.ofNat v :: bytesOfNat n (v / 256)

@[simp] lemma length_bytesOfNat (n v : ℕ) : (bytesOfNat n v).length = n := by
  induction n generalizing v with
  | zero => rfl
  | succ n ih => rw [bytesOfNat, List.length_cons, ih]

lemma natOfBytes_bytesOfNat (n v : ℕ) : natOfBytes (bytesOfNat n v) = v % 256 ^ n := by
  induction n generalizing v with
  | zero => simp [bytesOfNat, natOfBytes, Nat.mod_one]
  | succ n ih =>
      have hbyte : (UInt8.ofNat v).toNat = v % 256 := UInt8.toNat_ofNat
      rw [bytesOfNat, natOfBytes, ih, hbyte, pow_succ', Nat.mod_mul]

/-- A signed integer of `n` bytes, in two's complement. -/
def intCodec (n : ℕ) (hn : 0 < n) : Codec ℤ where
  size := n
  encode v := bytesOfNat n (v % (256 ^ n : ℕ)).toNat
  decode bs := (natOfBytes bs : ℤ).bmod (256 ^ n)
  Fits v := -(256 ^ n : ℕ) ≤ v * 2 ∧ v * 2 < (256 ^ n : ℕ)
  size_pos := hn
  length_encode v := length_bytesOfNat n _
  decode_encode v hv := by
    have hpos : (0 : ℤ) < (256 ^ n : ℕ) := by positivity
    have hval : ((natOfBytes (bytesOfNat n (v % (256 ^ n : ℕ)).toNat) : ℕ) : ℤ) =
        v % (256 ^ n : ℕ) := by
      rw [natOfBytes_bytesOfNat, Int.natCast_mod, Int.toNat_of_nonneg (Int.emod_nonneg v hpos.ne'),
        Int.emod_emod]
    rw [hval, Int.emod_bmod]
    exact Int.bmod_eq_of_le_mul_two hv.1 hv.2

/-- A structure of two members, without padding. -/
def Codec.prod (c : Codec α) (d : Codec β) : Codec (α × β) where
  size := c.size + d.size
  encode r := c.encode r.1 ++ d.encode r.2
  decode bs := (c.decode (bs.take c.size), d.decode (bs.drop c.size))
  Fits r := c.Fits r.1 ∧ d.Fits r.2
  size_pos := Nat.add_pos_left c.size_pos _
  length_encode r := by rw [List.length_append, c.length_encode, d.length_encode]
  decode_encode r hr := by
    rw [← c.length_encode r.1, List.take_left, List.drop_left, c.decode_encode _ hr.1,
      d.decode_encode _ hr.2]

/-- A type with the same members. -/
def Codec.of (c : Codec α) (f : β → α) (g : α → β) (hgf : ∀ r, g (f r) = r) : Codec β where
  size := c.size
  encode r := c.encode (f r)
  decode bs := g (c.decode bs)
  Fits r := c.Fits (f r)
  size_pos := c.size_pos
  length_encode r := c.length_encode (f r)
  decode_encode r hr := by rw [c.decode_encode _ hr, hgf]

/-! ### The records of a file -/

section Records

variable (c : Codec β) {bs bs' b : List UInt8} {r : β} {rs : List β}

/-- The whole records that the bytes are read as. -/
def records (bs : List UInt8) : List β :=
  (List.range (bs.length / c.size)).map fun i => c.decode ((bs.drop (i * c.size)).take c.size)

/-- The bytes behind the last whole record. -/
def leftover (bs : List UInt8) : List UInt8 := bs.drop (bs.length / c.size * c.size)

/-- The bytes of a file to which the records have been written. -/
def encodeAll (rs : List β) : List UInt8 := rs.flatMap c.encode

@[simp] lemma encodeAll_append (rs rs' : List β) :
    encodeAll c (rs ++ rs') = encodeAll c rs ++ encodeAll c rs' :=
  List.flatMap_append

@[simp] lemma encodeAll_singleton (r : β) : encodeAll c [r] = c.encode r :=
  List.flatMap_singleton _ _

lemma records_of_lt (h : bs.length < c.size) : records c bs = [] := by
  rw [records, Nat.div_eq_of_lt h]
  rfl

lemma leftover_of_lt (h : bs.length < c.size) : leftover c bs = bs := by
  rw [leftover, Nat.div_eq_of_lt h, Nat.zero_mul, List.drop_zero]

@[simp] lemma records_nil : records c [] = [] := records_of_lt c c.size_pos

@[simp] lemma leftover_nil : leftover c [] = [] := leftover_of_lt c c.size_pos

lemma length_block_append (hb : b.length = c.size) :
    (b ++ bs).length / c.size = bs.length / c.size + 1 := by
  rw [List.length_append, hb, Nat.add_comm, Nat.add_div_right _ c.size_pos]

/-- One record is read. -/
lemma records_block_append (hb : b.length = c.size) :
    records c (b ++ bs) = c.decode b :: records c bs := by
  rw [records, length_block_append c hb, List.range_succ_eq_map, List.map_cons, List.map_map,
    records]
  congr 1
  · rw [Nat.zero_mul, List.drop_zero, ← hb, List.take_left]
  · refine List.map_congr_left fun i _ => ?_
    rw [Function.comp_apply, Nat.succ_mul, Nat.add_comm, ← hb, List.drop_length_add_append]

lemma leftover_block_append (hb : b.length = c.size) :
    leftover c (b ++ bs) = leftover c bs := by
  rw [leftover, length_block_append c hb, Nat.succ_mul, Nat.add_comm, ← hb,
    List.drop_length_add_append, hb, leftover]

/-- **The induction over a file**, record by record. -/
theorem block_induction {P : List UInt8 → Prop} (short : ∀ bs, bs.length < c.size → P bs)
    (block : ∀ b bs, b.length = c.size → P bs → P (b ++ bs)) (bs : List UInt8) : P bs := by
  induction hn : bs.length using Nat.strong_induction_on generalizing bs with
  | _ n ih =>
    rcases Nat.lt_or_ge bs.length c.size with hlt | hge
    · exact short bs hlt
    · have hpos := c.size_pos
      have hdrop : (bs.drop c.size).length < n := by
        rw [List.length_drop]
        omega
      have hbs := block (bs.take c.size) (bs.drop c.size) (List.length_take_of_le hge)
        (ih _ hdrop _ rfl)
      rwa [List.take_append_drop] at hbs

/-- **Whole records are read back**, whatever follows them. -/
theorem records_encodeAll_append (hrs : ∀ r ∈ rs, c.Fits r) (bs : List UInt8) :
    records c (encodeAll c rs ++ bs) = rs ++ records c bs := by
  induction rs with
  | nil => rfl
  | cons r rs ih =>
      rw [encodeAll, List.flatMap_cons, List.append_assoc,
        records_block_append c (c.length_encode r), c.decode_encode r (hrs r List.mem_cons_self)]
      exact congrArg (r :: ·) (ih fun r hr => hrs r (List.mem_cons_of_mem _ hr))

lemma leftover_encodeAll_append (rs : List β) (bs : List UInt8) :
    leftover c (encodeAll c rs ++ bs) = leftover c bs := by
  induction rs with
  | nil => rfl
  | cons r rs ih =>
      rw [encodeAll, List.flatMap_cons, List.append_assoc,
        leftover_block_append c (c.length_encode r)]
      exact ih

lemma records_encodeAll (hrs : ∀ r ∈ rs, c.Fits r) : records c (encodeAll c rs) = rs := by
  have hrecords := records_encodeAll_append c hrs []
  rwa [records_nil, List.append_nil, List.append_nil] at hrecords

lemma leftover_encodeAll (rs : List β) : leftover c (encodeAll c rs) = [] := by
  have hleft := leftover_encodeAll_append c rs []
  rwa [leftover_nil, List.append_nil] at hleft

/-- **A file that grows keeps its records.** -/
theorem records_grow (h : bs <+: bs') : records c bs <+: records c bs' := by
  induction bs using block_induction c generalizing bs' with
  | short bs hlt =>
      rw [records_of_lt c hlt]
      exact List.nil_prefix
  | block b bs hb ih =>
      obtain ⟨tail, rfl⟩ := h
      rw [List.append_assoc, records_block_append c hb, records_block_append c hb,
        List.cons_prefix_cons]
      exact ⟨rfl, ih (List.prefix_append bs tail)⟩

/-- How records are read that are written behind the bytes `t`: each one begins with the end of
the one before. -/
def torn : List UInt8 → List β → List β
  | _, [] => []
  | t, r :: rs =>
      c.decode (t ++ (c.encode r).take (c.size - t.length)) ::
        torn ((c.encode r).drop (c.size - t.length)) rs

/-- **Behind a torn record** every record is read across two of those written. -/
theorem records_torn {t : List UInt8} (ht : t.length < c.size) (rs : List β) :
    records c (t ++ encodeAll c rs) = torn c t rs := by
  induction rs generalizing t with
  | nil =>
      rw [encodeAll, List.flatMap_nil, List.append_nil, records_of_lt c ht]
      rfl
  | cons r rs ih =>
      have hsplit : t ++ encodeAll c (r :: rs) =
          (t ++ (c.encode r).take (c.size - t.length)) ++
            ((c.encode r).drop (c.size - t.length) ++ encodeAll c rs) := by
        rw [encodeAll, List.flatMap_cons, List.append_assoc, ← List.append_assoc (List.take _ _),
          List.take_append_drop]
        rfl
      have hblock : (t ++ (c.encode r).take (c.size - t.length)).length = c.size := by
        rw [List.length_append, List.length_take, c.length_encode]
        omega
      have hrest : ((c.encode r).drop (c.size - t.length)).length < c.size := by
        rw [List.length_drop, c.length_encode]
        omega
      rw [hsplit, records_block_append c hblock, ih hrest, torn]

end Records

/-! ### Reading loops -/

section Reading

variable (c : Codec β) (cut : List UInt8 → β)

/-- `fread` of one record: where less than a record is left, the end-of-file indicator is set, and
the buffer is what `cut` makes of the bytes, if there are any. -/
def freadBytes (buf : β) (fp : Stdio.Stream UInt8) : β × Stdio.Stream UInt8 :=
  if c.size ≤ fp.rest.length then
    (c.decode (fp.rest.take c.size), ⟨fp.rest.drop c.size, fp.eof⟩)
  else (if fp.rest = [] then buf else cut fp.rest, ⟨[], true⟩)

/-- `while (feof(fp) == 0) { buf = zero; fread(&buf, …, fp); body }`, on the bytes. -/
def whileNotEofBytes (zero : β) (body : σ → β → σ) (s : σ) (fp : Stdio.Stream UInt8) : σ :=
  (While.whileLoop (fun x : σ × Stdio.Stream UInt8 => !Stdio.feof x.2)
    (fun x => (body x.1 (freadBytes c cut zero x.2).1, (freadBytes c cut zero x.2).2))
    (fun x => x.2.readsLeft) (s, fp)).1

/-- The buffer after the last read. -/
def lastRead (zero : β) (bs : List UInt8) : β :=
  if leftover c bs = [] then zero else cut (leftover c bs)

lemma readsLeft_freadBytes_lt (buf : β) {fp : Stdio.Stream UInt8} (h : Stdio.feof fp = false) :
    (freadBytes c cut buf fp).2.readsLeft < fp.readsLeft := by
  have hpos := c.size_pos
  obtain ⟨rest, eof⟩ := fp
  obtain rfl : eof = false := h
  rw [freadBytes]
  split
  · simp only [Stdio.Stream.readsLeft, List.length_drop] at *
    omega
  · simp [Stdio.Stream.readsLeft]

lemma whileNotEofBytes_step (zero : β) (body : σ → β → σ) (s : σ) (fp : Stdio.Stream UInt8) :
    whileNotEofBytes c cut zero body s fp =
      if Stdio.feof fp then s
      else whileNotEofBytes c cut zero body (body s (freadBytes c cut zero fp).1)
        (freadBytes c cut zero fp).2 := by
  rw [whileNotEofBytes, While.whileLoop_eq]
  · cases Stdio.feof fp <;> simp [whileNotEofBytes]
  · intro x hx
    exact readsLeft_freadBytes_lt c cut zero (by simpa using hx)

/-- **The reading loop on the bytes**: its body sees every whole record, and then what the last
read leaves. -/
theorem whileNotEofBytes_fopen (zero : β) (body : σ → β → σ) (s : σ) (bs : List UInt8) :
    whileNotEofBytes c cut zero body s (Stdio.fopen bs) =
      (records c bs ++ [lastRead c cut zero bs]).foldl body s := by
  induction bs using block_induction c generalizing s with
  | short bs hlt =>
      rw [whileNotEofBytes_step, if_neg (by simp [Stdio.fopen, Stdio.feof]), freadBytes,
        if_neg (by simpa [Stdio.fopen] using hlt), whileNotEofBytes_step,
        if_pos (by simp [Stdio.feof]), records_of_lt c hlt, lastRead, leftover_of_lt c hlt]
      rfl
  | block b bs hb ih =>
      have hread : freadBytes c cut zero (Stdio.fopen (b ++ bs)) =
          (c.decode b, Stdio.fopen bs) := by
        rw [freadBytes, if_pos (by simp [Stdio.fopen, hb])]
        simp [Stdio.fopen, ← hb]
      rw [whileNotEofBytes_step, if_neg (by simp [Stdio.fopen, Stdio.feof]), hread, ih,
        records_block_append c hb, lastRead, lastRead, leftover_block_append c hb]
      rfl

/-- On a file of whole records it is the loop on these. -/
theorem whileNotEofBytes_encodeAll (zero : β) (body : σ → β → σ) (s : σ) {rs : List β}
    (hrs : ∀ r ∈ rs, c.Fits r) :
    whileNotEofBytes c cut zero body s (Stdio.fopen (encodeAll c rs)) =
      Stdio.whileNotEof zero body s (Stdio.fopen rs) := by
  rw [whileNotEofBytes_fopen, records_encodeAll c hrs, lastRead,
    if_pos (leftover_encodeAll c rs), Stdio.whileNotEof_fopen]

end Reading

end Records
