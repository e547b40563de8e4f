import Gauge.Base.While

/-!
C streams of fixed-size records, as far as reading loops need them.

The end-of-file indicator of a stream is set by a read that finds nothing, never by the
read of the last record.  A loop that tests the indicator before each read therefore runs
once more than there are records, with the buffer as it was before the read:
`whileNotEof_fopen`.
-/

namespace Stdio

variable {β σ : Type*}

/-- A stream opened for reading: the records not read yet and the end-of-file indicator. -/
structure Stream (β : Type*) where
  rest : List β
  eof : Bool

/-- `fopen` for reading, on a file that exists. -/
def fopen (file : List β) : Stream β := ⟨file, false⟩

/-- `fopen(path, "r")`, which fails if there is no file, and for other reasons too: `ok` says
that there is none. -/
def fopenRead (ok : Bool) (file : Option (List β)) : Option (Stream β) :=
  if ok then file.map fopen else none

lemma fopenRead_some {ok : Bool} {file : Option (List β)} {fp : Stream β}
    (h : fopenRead ok file = some fp) : ∃ records, file = some records ∧ fp = fopen records := by
  rw [fopenRead] at h
  split_ifs at h
  obtain ⟨records, hfile, rfl⟩ := Option.map_eq_some_iff.mp h
  exact ⟨records, hfile, rfl⟩

/-- `fopen(path, "a+")`, which creates the file: the records that are written to it come
behind these. -/
def fopenAppend (ok : Bool) (file : Option (List β)) : Option (List β) :=
  if ok then some (file.getD []) else none

/-- `feof`. -/
def feof (fp : Stream β) : Bool := fp.eof

/-- `fread` of one record: at the end of the file the buffer keeps its contents and the
indicator is set. -/
def fread (buf : β) (fp : Stream β) : β × Stream β :=
  match fp.rest with
  | [] => (buf, ⟨[], true⟩)
  | r :: rs => (r, ⟨rs, fp.eof⟩)

/-- The reads that a stream has left: one for each record, and the one that finds the end. -/
def Stream.readsLeft (fp : Stream β) : ℕ := fp.rest.length + if fp.eof then 0 else 1

/-- `while (feof(fp) == 0) { buf = zero; fread(&buf, …, fp); body }`. -/
def whileNotEof (zero : β) (body : σ → β → σ) (s : σ) (fp : Stream β) : σ :=
  (While.whileLoop (fun x : σ × Stream β => !feof x.2)
    (fun x => (body x.1 (fread zero x.2).1, (fread zero x.2).2))
    (fun x => x.2.readsLeft) (s, fp)).1

lemma readsLeft_fread_lt (buf : β) {fp : Stream β} (h : feof fp = false) :
    (fread buf fp).2.readsLeft < fp.readsLeft := by
  obtain ⟨rest, eof⟩ := fp
  rw [feof] at h
  cases rest <;> simp_all [fread, Stream.readsLeft]

lemma whileNotEof_eq (zero : β) (body : σ → β → σ) (s : σ) (fp : Stream β) :
    whileNotEof zero body s fp =
      if feof fp then s
      else whileNotEof zero body (body s (fread zero fp).1) (fread zero fp).2 := by
  rw [whileNotEof, While.whileLoop_eq]
  · cases feof fp <;> simp [whileNotEof]
  · intro x hx
    exact readsLeft_fread_lt zero (by simpa using hx)

/-- **The loop takes one step too many**: its body sees every record of the file and then
the zeroed buffer. -/
theorem whileNotEof_fopen (zero : β) (body : σ → β → σ) (s : σ) (file : List β) :
    whileNotEof zero body s (fopen file) = (file ++ [zero]).foldl body s := by
  induction file generalizing s with
  | nil =>
      rw [whileNotEof_eq, if_neg (by simp [fopen, feof]), whileNotEof_eq,
        if_pos (by simp [fopen, feof, fread])]
      rfl
  | cons r rs ih =>
      rw [whileNotEof_eq, if_neg (by simp [fopen, feof])]
      exact ih (body s r)

end Stdio
