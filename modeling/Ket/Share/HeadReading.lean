import Ket.Share.Http

/-!
# Reading a head in pieces (`ket-share/src/http.rs`, `read_head`)

The head of a stream is what stands up to and including its first blank line.  However the stream is
split into reads, a head that is returned is that one, and nothing of the stream is lost.  Whether a
head is refused for its length does depend on the reads: the length is looked at between two of them,
so a head that is too long is accepted when one read brings both the byte that is too much and the
end (`readsExactly_iff`, `head_depends_on_reads`).
-/

namespace Ket.Share.Http

open Ket.Lib Ket.Lib.Head List

/-! ### The head of a stream -/

/-- The shortest start of a stream that ends with a blank line. -/
structure IsHead (stream head : List UInt8) : Prop where
  start : head <+: stream
  ends : endOfHead <:+ head
  first : ∀ other, other <+: stream → endOfHead <:+ other → head.length ≤ other.length

variable {stream head head' rest buffer more : List UInt8} {chunks : List (List UInt8)}

lemma IsHead.unique (h : IsHead stream head) (h' : IsHead stream head') : head = head' :=
  List.IsPrefix.eq_of_length
    (prefix_of_prefix_length_le h.start h'.start (h.first _ h'.start h'.ends))
    (le_antisymm (h.first _ h'.start h'.ends) (h'.first _ h.start h.ends))

lemma isHead_of_splitHead (h : splitHead stream = some (head, rest)) :
    IsHead stream head ∧ head ++ rest = stream := by
  obtain ⟨position, hfind, heq⟩ := Option.map_eq_some_iff.mp h
  obtain ⟨before, after, hstream, hlen⟩ := eq_of_find hfind
  have hhead : head = before ++ endOfHead := by
    cases heq
    rw [hstream, take_append_of_le_length (by simp [hlen])]
    exact take_of_length_le (by simp [hlen])
  cases heq
  refine ⟨⟨List.take_prefix _ _, ⟨before, hhead.symm⟩, ?_⟩, take_append_drop _ _⟩
  rintro other ⟨tail, hother⟩ ⟨front, rfl⟩
  have hfound : endOfHead <+: stream.drop front.length := by
    rw [← hother, append_assoc, drop_left]
    exact prefix_append _ _
  have hle := le_of_find hfind hfound
  rw [hhead, length_append, length_append]
  omega

/-- A stream with a blank line is split at its head. -/
lemma splitHead_eq_some_iff :
    splitHead stream = some (head, rest) ↔ IsHead stream head ∧ head ++ rest = stream := by
  refine ⟨isHead_of_splitHead, ?_⟩
  rintro ⟨hhead, hrest⟩
  obtain ⟨front, rfl⟩ := hhead.ends
  cases hsplit : splitHead stream with
  | none =>
    have hnone : find endOfHead stream = none := Option.map_eq_none_iff.mp hsplit
    exact absurd ⟨front, rest, hrest⟩ (not_isInfix_of_find hnone)
  | some parts =>
    obtain ⟨head', rest'⟩ := parts
    obtain ⟨hhead', hrest'⟩ := isHead_of_splitHead hsplit
    obtain rfl := hhead.unique hhead'
    rw [append_cancel_left (hrest.trans hrest'.symm)]

/-- A stream whose first bytes hold no blank line has a longer head, if it has one. -/
lemma IsHead.lt_length (h : IsHead (buffer ++ more) head) (hnone : splitHead buffer = none) :
    buffer.length < head.length := by
  by_contra hle
  have hstart : head <+: buffer :=
    prefix_of_prefix_length_le h.start (prefix_append _ _) (Nat.le_of_not_lt hle)
  obtain ⟨rest, hrest⟩ := hstart
  have hhead : IsHead buffer head :=
    ⟨⟨rest, hrest⟩, h.ends, fun other hother => h.first other (hother.trans (prefix_append _ _))⟩
  rw [splitHead_eq_some_iff.mpr ⟨hhead, hrest⟩] at hnone
  cases hnone

/-! ### Reads -/

/-- The reads of a stream: each brings some bytes, and no more than the chunk holds. -/
def Reads (chunks : List (List UInt8)) : Prop :=
  ∀ chunk ∈ chunks, chunk ≠ [] ∧ chunk.length ≤ chunkSize

/-- A head is accepted if each read that starts before its end starts within the limit. -/
lemma exists_readHead_iff (hreads : Reads chunks) :
    (∃ result, readHead buffer chunks = .ok result) ↔
      ∃ head, IsHead (buffer ++ chunks.flatten) head ∧
        ∀ n, (buffer ++ (chunks.take n).flatten).length < head.length →
          (buffer ++ (chunks.take n).flatten).length ≤ maxHead := by
  induction chunks generalizing buffer with
  | nil =>
    rw [readHead]
    cases hsplit : splitHead buffer with
    | none =>
      constructor
      · rintro ⟨_, h⟩
        cases h
      · rintro ⟨head, hhead, -⟩
        have hlt := hhead.lt_length hsplit
        have hle := hhead.start.length_le
        rw [flatten_nil, append_nil] at hle
        omega
    | some parts =>
      obtain ⟨head, rest⟩ := parts
      obtain ⟨hhead, -⟩ := splitHead_eq_some_iff.mp hsplit
      refine ⟨fun _ => ⟨head, by simpa using hhead, fun n hlt => ?_⟩, fun _ => ⟨_, rfl⟩⟩
      have hle := hhead.start.length_le
      simp only [take_nil, flatten_nil, append_nil] at hlt
      omega
  | cons chunk chunks ih =>
    rw [readHead]
    cases hsplit : splitHead buffer with
    | some parts =>
      obtain ⟨head, rest⟩ := parts
      obtain ⟨hhead, -⟩ := splitHead_eq_some_iff.mp hsplit
      have hmore : splitHead (buffer ++ (chunk :: chunks).flatten) = _ := splitHead_append hsplit
      obtain ⟨hlong, -⟩ := splitHead_eq_some_iff.mp hmore
      refine ⟨fun _ => ⟨head, hlong, fun n hlt => ?_⟩, fun _ => ⟨_, rfl⟩⟩
      have hle := hhead.start.length_le
      rw [length_append] at hlt
      omega
    | none =>
      obtain ⟨⟨hne, -⟩, hrest⟩ := forall_mem_cons.mp hreads
      have hshift : ∀ n, buffer ++ chunk ++ (chunks.take n).flatten =
          buffer ++ ((chunk :: chunks).take (n + 1)).flatten := by simp
      have hstream : buffer ++ chunk ++ chunks.flatten =
          buffer ++ (chunk :: chunks).flatten := by simp
      simp only
      split
      · -- the buffer is too long before the end has been read
        rename_i hlong
        constructor
        · rintro ⟨_, h⟩
          cases h
        · rintro ⟨head, hhead, hstarts⟩
          have hle := hstarts 0 (by simpa using hhead.lt_length hsplit)
          simp only [take_zero, flatten_nil, append_nil] at hle
          omega
      · rename_i hlong
        rw [ih hrest, hstream]
        refine exists_congr fun head => and_congr_right fun _ => ?_
        simp only [hshift]
        refine ⟨fun h n hlt => ?_, fun h n => h (n + 1)⟩
        cases n with
        | zero => simpa using Nat.le_of_not_lt hlong
        | succ n => exact h n hlt

/-- What `read_head` should do with a stream that comes in some chunks behind a first byte. -/
def ReadsExactly (first : Option UInt8) (chunks : List (List UInt8)) : Prop :=
  (∀ head rest later, readHead first.toList chunks = .ok (head, rest, later) →
    IsHead (first.toList ++ chunks.flatten) head ∧
      head ++ rest ++ later.flatten = first.toList ++ chunks.flatten) ∧
  ((∃ refusal, readHead first.toList chunks = .error refusal) ↔
    ∀ head, IsHead (first.toList ++ chunks.flatten) head → maxHead < head.length)

/-- **Reading a head** depends on the reads only for heads that are too long: such a head is refused
exactly if some read ends behind the limit and before the end of the head. -/
theorem readsExactly_iff (first : Option UInt8) {chunks : List (List UInt8)}
    (hreads : Reads chunks) : ReadsExactly first chunks ↔
      ∀ head, IsHead (first.toList ++ chunks.flatten) head → maxHead < head.length →
        ∃ n, maxHead < (first.toList ++ (chunks.take n).flatten).length ∧
          (first.toList ++ (chunks.take n).flatten).length < head.length := by
  have hhead : ∀ head rest later, readHead first.toList chunks = .ok (head, rest, later) →
      IsHead (first.toList ++ chunks.flatten) head ∧
        head ++ rest ++ later.flatten = first.toList ++ chunks.flatten := by
    intro head rest later h
    rw [append_assoc]
    exact isHead_of_splitHead (splitHead_of_readHead h)
  have herror : (∃ refusal, readHead first.toList chunks = .error refusal) ↔
      ¬ ∃ result, readHead first.toList chunks = .ok result := by
    cases readHead first.toList chunks <;> simp
  rw [ReadsExactly, herror, exists_readHead_iff hreads]
  constructor
  · rintro ⟨-, hrefused⟩ head hhead hlong
    by_contra hnone
    refine hrefused.mpr (fun head' hhead' => hhead.unique hhead' ▸ hlong) ⟨head, hhead, ?_⟩
    intro n hlt
    exact Nat.le_of_not_lt fun hlimit => hnone ⟨n, hlimit, hlt⟩
  · intro hends
    refine ⟨hhead, fun hrefused head hhead => ?_, ?_⟩
    · by_contra hshort
      exact hrefused ⟨head, hhead, fun n hlt => by omega⟩
    · rintro hlong ⟨head, hhead, hstarts⟩
      obtain ⟨n, hlimit, hlt⟩ := hends head hhead (hlong head hhead)
      exact absurd (hstarts n hlt) (Nat.not_le_of_lt hlimit)

/-! ### A head that is four bytes too long -/

/-- As many bytes as a head may have, in full chunks. -/
def fullChunks : List (List UInt8) := List.replicate 8 (List.replicate chunkSize 0x61)

lemma flatten_fullChunks : fullChunks.flatten = List.replicate maxHead 0x61 :=
  flatten_replicate_replicate

lemma find_replicate (n : ℕ) : find endOfHead (List.replicate n 0x61 ++ endOfHead) = some n := by
  induction n with
  | zero => rfl
  | succ n ih =>
    have hnot : endOfHead.isPrefixOf (0x61 :: (List.replicate n 0x61 ++ endOfHead)) = false := rfl
    rw [replicate_succ, cons_append, find, hnot, ih]
    rfl

lemma isHead_long : IsHead (fullChunks.flatten ++ endOfHead) (fullChunks.flatten ++ endOfHead) := by
  have hsplit : splitHead (fullChunks.flatten ++ endOfHead) =
      some (fullChunks.flatten ++ endOfHead, []) := by
    have hlen : maxHead + endOfHead.length =
        (List.replicate maxHead (0x61 : UInt8) ++ endOfHead).length := by
      rw [length_append, length_replicate]
    rw [flatten_fullChunks, splitHead, find_replicate, Option.map_some, hlen, take_length,
      drop_length]
  exact (isHead_of_splitHead hsplit).1

lemma reads_append {last : List (List UInt8)} (h : Reads last) : Reads (fullChunks ++ last) := by
  intro chunk hchunk
  rcases mem_append.mp hchunk with hchunk | hchunk
  · rw [eq_of_mem_replicate hchunk, length_replicate]
    refine ⟨fun hnil => ?_, le_rfl⟩
    have hlen := congrArg List.length hnil
    rw [length_replicate] at hlen
    cases hlen
  · exact h chunk hchunk

lemma length_flatten_take (n : ℕ) : (fullChunks.take n).flatten.length ≤ maxHead := by
  rw [fullChunks, take_replicate, flatten_replicate_replicate, length_replicate,
    chunkSize, maxHead]
  omega

/-- The end comes in one piece. -/
def inOnePiece : List (List UInt8) := fullChunks ++ [endOfHead]

/-- The end comes byte by byte. -/
def byteByByte : List (List UInt8) := fullChunks ++ endOfHead.map fun b => [b]

lemma reads_inOnePiece : Reads inOnePiece :=
  reads_append fun chunk hchunk => mem_singleton.mp hchunk ▸ by decide

lemma reads_byteByByte : Reads byteByByte := by
  refine reads_append fun chunk hchunk => ?_
  obtain ⟨b, -, rfl⟩ := mem_map.mp hchunk
  exact ⟨cons_ne_nil _ _, show 1 ≤ chunkSize by decide⟩

lemma flatten_inOnePiece : inOnePiece.flatten = fullChunks.flatten ++ endOfHead := by
  rw [inOnePiece, flatten_append, flatten_singleton]

lemma flatten_byteByByte : byteByByte.flatten = fullChunks.flatten ++ endOfHead := by
  rw [byteByByte, flatten_append]
  rfl

lemma length_long : (fullChunks.flatten ++ endOfHead).length = maxHead + 4 := by
  rw [flatten_fullChunks, length_append, length_replicate]
  rfl

/-- Reads that go past the full chunks. -/
lemma flatten_take_append (last : List (List UInt8)) (k : ℕ) :
    ((fullChunks ++ last).take (fullChunks.length + k)).flatten =
      List.replicate maxHead 0x61 ++ (last.take k).flatten := by
  rw [take_length_add_append, flatten_append, flatten_fullChunks]

/-- Some read of the bytes one by one ends behind the limit. -/
lemma exists_between : ∃ n, maxHead < ((none : Option UInt8).toList ++
      (byteByByte.take n).flatten).length ∧
    ((none : Option UInt8).toList ++ (byteByByte.take n).flatten).length < maxHead + 4 := by
  refine ⟨fullChunks.length + 1, ?_⟩
  have hlen : ((byteByByte.take (fullChunks.length + 1)).flatten).length = maxHead + 1 := by
    rw [byteByByte, flatten_take_append, length_append, length_replicate]
    rfl
  rw [Option.toList_none, nil_append, hlen]
  omega

lemma length_of_isHead (h : IsHead ([] ++ (fullChunks.flatten ++ endOfHead)) head) :
    head.length = maxHead + 4 := by
  rw [nil_append] at h
  rw [h.unique isHead_long, length_long]

/-- The head is too long, and some read ends in between. -/
theorem readsExactly_byteByByte :
    Reads byteByByte ∧ maxHead < byteByByte.flatten.length ∧ ReadsExactly none byteByByte := by
  refine ⟨reads_byteByByte, ?_, ?_⟩
  · rw [flatten_byteByByte, length_long]
    omega
  · refine (readsExactly_iff none reads_byteByByte).mpr fun head hhead _ => ?_
    rw [flatten_byteByByte] at hhead
    rw [length_of_isHead hhead]
    exact exists_between

/-- **The same bytes, read in two ways**: one read that brings the whole end is too late for the
limit, and the head is accepted although it is too long. -/
theorem head_depends_on_reads :
    Reads inOnePiece ∧ Reads byteByByte ∧ inOnePiece.flatten = byteByByte.flatten ∧
      (∃ result, readHead [] inOnePiece = .ok result) ∧
      (∃ refusal, readHead [] byteByByte = .error refusal) ∧ ¬ ReadsExactly none inOnePiece := by
  have haccepted : ∃ result, readHead [] inOnePiece = .ok result := by
    refine (exists_readHead_iff reads_inOnePiece).mpr ⟨fullChunks.flatten ++ endOfHead, ?_, ?_⟩
    · rw [nil_append, flatten_inOnePiece]
      exact isHead_long
    · -- the reads end within the limit, but for the last one, which ends with the head
      intro n hlt
      rw [nil_append] at hlt ⊢
      rcases Nat.lt_or_ge fullChunks.length n with hn | hn
      · obtain ⟨k, rfl⟩ := Nat.exists_eq_add_of_lt hn
        rw [inOnePiece, Nat.add_assoc, flatten_take_append, length_long] at hlt
        simp [endOfHead, crlf] at hlt
      · rw [inOnePiece, take_append_of_le_length hn]
        exact length_flatten_take n
  have hrefused : ∃ refusal, readHead [] byteByByte = .error refusal := by
    cases hread : readHead [] byteByByte with
    | error refusal => exact ⟨refusal, rfl⟩
    | ok result =>
      obtain ⟨head, hhead, hstarts⟩ := (exists_readHead_iff reads_byteByByte).mp ⟨result, hread⟩
      obtain ⟨n, hlimit, hlt⟩ := exists_between
      rw [flatten_byteByByte] at hhead
      rw [← length_of_isHead hhead] at hlt
      exact absurd (hstarts n hlt) (Nat.not_le_of_lt hlimit)
  refine ⟨reads_inOnePiece, reads_byteByByte, flatten_inOnePiece.trans flatten_byteByByte.symm,
    haccepted, hrefused, ?_⟩
  rintro ⟨-, hrefuses⟩
  obtain ⟨result, hread⟩ := haccepted
  obtain ⟨refusal, herror⟩ := hrefuses.mpr fun head hhead => by
    rw [flatten_inOnePiece] at hhead
    rw [length_of_isHead hhead]
    omega
  rw [Option.toList_none, hread] at herror
  cases herror

end Ket.Share.Http
