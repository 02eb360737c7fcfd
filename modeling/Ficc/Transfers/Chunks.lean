import Ficc.Transfers.Node

/-!
# Reading a partial file

What the verification of a prefix reads: the chunks one after the other are the prefix, and a file
that is shortened to the prefix is read in the same way.
-/

namespace Ficc.Transfers.Node

open Execution (Digest)

theorem CHUNK_pos : 0 < CHUNK := by decide

theorem le_div_mul (size : ℕ) {chunk : ℕ} (hchunk : 0 < chunk) :
    size ≤ (size + chunk - 1) / chunk * chunk := by
  have hdiv := Nat.div_add_mod (size + chunk - 1) chunk
  have hmod := Nat.mod_lt (size + chunk - 1) hchunk
  rw [Nat.mul_comm] at hdiv
  omega

theorem le_journalEntries_mul (size : ℕ) : size ≤ journalEntries size * CHUNK :=
  le_div_mul size CHUNK_pos

variable {content : Bytes} {expected k n : ℕ} {chained : Digest} {chunks : List Digest}

theorem pread_take {offset : ℕ} :
    pread (content.take expected) (min CHUNK (expected - offset)) offset =
      pread content (min CHUNK (expected - offset)) offset := by
  simp [pread, List.drop_take, List.take_take]

/-- A prefix from an offset on is the chunk there and the prefix from the next offset on. -/
theorem drop_take_eq_pread_append (content : Bytes) (expected offset : ℕ) :
    (content.take expected).drop offset =
      pread content (min CHUNK (expected - offset)) offset ++
        (content.take expected).drop (offset + CHUNK) := by
  rw [← pread_take, ← List.drop_drop]
  conv_lhs => rw [← List.take_append_drop CHUNK ((content.take expected).drop offset)]
  congr 1
  rw [pread, ← List.take_take, List.take_of_length_le (i := expected - offset)]
  rw [List.length_drop, List.length_take]
  omega

/-- More bytes do not change a whole chunk. -/
theorem pread_append {accepted bytes : Bytes} {offset : ℕ} (haligned : offset % CHUNK = 0) (hwhole : accepted.length % CHUNK = 0)
    (hlt : offset < accepted.length) :
    pread (accepted ++ bytes) CHUNK offset = pread accepted CHUNK offset := by
  have hend : offset + CHUNK ≤ accepted.length := by
    simp only [CHUNK] at haligned hwhole ⊢
    omega
  rw [pread, pread, List.drop_append_of_le_length hlt.le, List.take_append_of_le_length]
  rw [List.length_drop]
  omega

/-- The offsets from the `k`th chunk on. -/
def offsetsFrom (k n : ℕ) : List ℕ := (List.range' k n).map (· * CHUNK)

theorem chunkOffsets_eq (expected : ℕ) :
    chunkOffsets expected = offsetsFrom 0 (journalEntries expected) := by
  rw [chunkOffsets, offsetsFrom, List.range_eq_range']

theorem offsetsFrom_succ (k n : ℕ) :
    offsetsFrom k (n + 1) = k * CHUNK :: offsetsFrom (k + 1) n := by
  simp only [offsetsFrom, List.range'_succ, List.map_cons]

theorem offsetsFrom_zero (k : ℕ) : offsetsFrom k 0 = [] := by
  simp only [offsetsFrom, List.range'_zero, List.map_nil]

variable [Hashing]

/-- The verification reads the prefix. -/
theorem verifyChunks_eq_ok {chained' : Digest} {bytes : Bytes}
    (hn : k + n = journalEntries expected)
    (h : verifyChunks content chunks expected chained (offsetsFrom k n) = .ok (bytes, chained')) :
    bytes = (content.take expected).drop (k * CHUNK) := by
  induction n generalizing k chained bytes with
  | zero =>
    simp only [offsetsFrom_zero, verifyChunks, Except.ok.injEq, Prod.mk.injEq] at h
    have hle := le_journalEntries_mul expected
    rw [← hn, Nat.add_zero] at hle
    rw [← h.1, List.drop_of_length_le]
    rw [List.length_take]
    exact (Nat.min_le_left _ _).trans hle
  | succ n ih =>
    simp only [offsetsFrom_succ, verifyChunks, bind_eq_ok, Except.ok.injEq, Prod.mk.injEq] at h
    obtain ⟨-, -, ⟨rest, digest⟩, hrest, rfl, rfl⟩ := h
    have hread := ih (k := k + 1) (by omega) hrest
    rw [drop_take_eq_pread_append, hread, Nat.succ_mul]

/-- A file that is cut after the prefix is verified with the same result. -/
theorem verifyChunks_take_content :
    verifyChunks (content.take expected) chunks expected chained (offsetsFrom k n) =
      verifyChunks content chunks expected chained (offsetsFrom k n) := by
  induction n generalizing k chained with
  | zero => simp only [offsetsFrom_zero, verifyChunks]
  | succ n ih =>
    have hrest (chained : Digest) : verifyChunks (content.take expected) chunks expected chained
        (offsetsFrom (k + 1) n) =
          verifyChunks content chunks expected chained (offsetsFrom (k + 1) n) := ih
    rw [offsetsFrom_succ]
    simp only [verifyChunks, pread_take, hrest]

/-- A journal that is cut after the prefix is read with the same result. -/
theorem verifyChunks_take_chunks (hn : k + n = journalEntries expected) :
    verifyChunks content (chunks.take (journalEntries expected)) expected chained
        (offsetsFrom k n) =
      verifyChunks content chunks expected chained (offsetsFrom k n) := by
  induction n generalizing k chained with
  | zero => simp only [offsetsFrom_zero, verifyChunks]
  | succ n ih =>
    have hentry : (chunks.take (journalEntries expected))[k * CHUNK / CHUNK]? =
        chunks[k * CHUNK / CHUNK]? := by
      rw [Nat.mul_div_cancel k CHUNK_pos]
      exact List.getElem?_take_of_lt (by omega)
    have hrest (chained : Digest) : verifyChunks content
        (chunks.take (journalEntries expected)) expected chained (offsetsFrom (k + 1) n) =
          verifyChunks content chunks expected chained (offsetsFrom (k + 1) n) := ih (by omega)
    rw [offsetsFrom_succ]
    simp only [verifyChunks, hentry, hrest]

/-- What is read is the prefix of the file. -/
theorem readPrefix_eq_ok {record : Record} {hashed : Digest}
    (h : readPrefix record content chunks = .ok hashed) :
    hashed = Hashing.sha256 (content.take record.offset) := by
  simp only [readPrefix, bind_eq_ok, Except.ok.injEq] at h
  obtain ⟨⟨bytes, chained⟩, hread, -, -, rfl⟩ := h
  rw [chunkOffsets_eq] at hread
  have hbytes : bytes = content.take record.offset := by
    simpa using verifyChunks_eq_ok (Nat.zero_add _) hread
  rw [hbytes]

/-- Shortening the file or the journal does not change what is read. -/
theorem readPrefix_take (record : Record) (content : Bytes) (chunks : List Digest) :
    readPrefix record (content.take record.offset) chunks = readPrefix record content chunks ∧
      readPrefix record content (chunks.take (journalEntries record.offset)) =
        readPrefix record content chunks := by
  constructor
  · simp only [readPrefix, chunkOffsets_eq, verifyChunks_take_content]
  · simp only [readPrefix, chunkOffsets_eq, verifyChunks_take_chunks (Nat.zero_add _)]

end Ficc.Transfers.Node
