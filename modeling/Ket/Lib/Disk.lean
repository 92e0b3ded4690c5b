import Mathlib.Tactic

/-!
# Replacing a file by a renamed temporary one

A directory with two names, the file itself (`path`) and a temporary file next to it (`temp`).
A writer opens the temporary file, truncating what is there, writes its data piece by piece at
the offset it has reached, and renames the temporary file over the other.  Two writers that
overlap share the temporary file and write into each other's data; a writer that is alone leaves
the file as it was until the rename, and then the file holds its data
(`Writing.read_rename`).

The unit of writing is an arbitrary type `β`; `default` is what a gap reads as.
-/

namespace Ket.Lib

structure Disk (β : Type) where
  /-- The content of each inode. -/
  content : ℕ → List β
  temp : Option ℕ
  path : Option ℕ
  /-- Inodes from here on are unused. -/
  fresh : ℕ

namespace Disk

variable {β : Type}

/-- A directory without files. -/
def empty : Disk β := ⟨fun _ => [], none, none, 0⟩

/-- The content of the file, if there is one. -/
def read (d : Disk β) : Option (List β) := d.path.map d.content

/-- Opens the temporary file, creating or truncating it. -/
def openTruncate (d : Disk β) : Disk β × ℕ :=
  match d.temp with
  | some fd => ({ d with content := Function.update d.content fd [] }, fd)
  | none =>
    ({ d with
      content := Function.update d.content d.fresh []
      temp := some d.fresh
      fresh := d.fresh + 1 }, d.fresh)

/-- A content after `bs` is written at `offset`. -/
def overwrite [Inhabited β] (content : List β) (offset : ℕ) (bs : List β) : List β :=
  content.take offset ++ List.replicate (offset - content.length) default ++ bs ++
    content.drop (offset + bs.length)

def write [Inhabited β] (d : Disk β) (fd offset : ℕ) (bs : List β) : Disk β :=
  { d with content := Function.update d.content fd (overwrite (d.content fd) offset bs) }

/-- Renames the temporary file over the file; it fails when there is none. -/
def rename (d : Disk β) : Option (Disk β) :=
  d.temp.map fun fd => { d with path := some fd, temp := none }

/-! ### A writer that is alone -/

/-- The two names are of different inodes, both in use. -/
structure WellFormed (d : Disk β) : Prop where
  path_lt : ∀ i ∈ d.path, i < d.fresh
  temp_lt : ∀ i ∈ d.temp, i < d.fresh
  temp_ne : ∀ i ∈ d.temp, i ∉ d.path

/-- A writer of `data` holds the temporary file and has written the first `n` units. -/
structure Writing (d : Disk β) (fd : ℕ) (data : List β) (n : ℕ) : Prop where
  wellFormed : d.WellFormed
  temp : d.temp = some fd
  content : d.content fd = data.take n
  le : n ≤ data.length

lemma wellFormed_empty : (empty : Disk β).WellFormed := ⟨by simp [empty], by simp [empty], by simp [empty]⟩

variable {fd k n : ℕ}

variable {d : Disk β}

/-- Writing to the temporary file leaves the file as it is. -/
lemma read_update (hd : d.WellFormed) (hfd : d.temp = some fd) (bs : List β) :
    read { d with content := Function.update d.content fd bs } = d.read := by
  unfold read
  cases hpath : d.path with
  | none => rfl
  | some i =>
    have hne : i ≠ fd := by
      rintro rfl
      exact hd.temp_ne i hfd hpath
    simp [hne]

lemma openTruncate_of_some (h : d.temp = some fd) :
    d.openTruncate = ({ d with content := Function.update d.content fd [] }, fd) := by
  simp only [openTruncate, h]

lemma openTruncate_of_none (h : d.temp = none) : d.openTruncate = ({ d with
      content := Function.update d.content d.fresh []
      temp := some d.fresh
      fresh := d.fresh + 1 }, d.fresh) := by
  simp only [openTruncate, h]

lemma writing_openTruncate (hd : d.WellFormed) (data : List β) :
    Writing d.openTruncate.1 d.openTruncate.2 data 0 := by
  cases htemp : d.temp with
  | some fd =>
    rw [openTruncate_of_some htemp]
    exact ⟨⟨hd.path_lt, hd.temp_lt, hd.temp_ne⟩, htemp, by simp, Nat.zero_le _⟩
  | none =>
    rw [openTruncate_of_none htemp]
    refine ⟨⟨fun i hi => Nat.lt_succ_of_lt (hd.path_lt i hi), ?_, ?_⟩, rfl, by simp,
      Nat.zero_le _⟩
    · rintro _ ⟨⟩
      exact Nat.lt_succ_self _
    · rintro _ ⟨⟩ hpath
      exact absurd (hd.path_lt _ hpath) (lt_irrefl _)

lemma read_openTruncate (hd : d.WellFormed) : d.openTruncate.1.read = d.read := by
  cases htemp : d.temp with
  | some fd =>
    rw [openTruncate_of_some htemp]
    exact read_update hd htemp []
  | none =>
    rw [openTruncate_of_none htemp]
    unfold read
    cases hpath : d.path with
    | none => rfl
    | some i =>
      have hne : i ≠ d.fresh := (hd.path_lt i hpath).ne
      simp [hne]

lemma overwrite_take [Inhabited β] {data : List β} (hn : n ≤ data.length) :
    overwrite (data.take n) n ((data.drop n).take k) = data.take (n + k) := by
  have hlen : (data.take n).length = n := by simpa using hn
  have hdrop : (data.take n).drop (n + ((data.drop n).take k).length) = [] :=
    List.drop_eq_nil_of_le (by omega)
  rw [overwrite, hlen, hdrop, Nat.sub_self, List.replicate_zero, List.append_nil, List.append_nil,
    List.take_of_length_le hlen.le, ← List.take_add]

/-- The next piece. -/
lemma Writing.write [Inhabited β] {data : List β} (h : Writing d fd data n)
    (hk : n + k ≤ data.length) : Writing (d.write fd n ((data.drop n).take k)) fd data (n + k) where
  wellFormed := ⟨h.wellFormed.path_lt, h.wellFormed.temp_lt, h.wellFormed.temp_ne⟩
  temp := h.temp
  content := by
    have hcontent : (d.write fd n ((data.drop n).take k)).content fd
        = overwrite (d.content fd) n ((data.drop n).take k) := Function.update_self _ _ _
    rw [hcontent, h.content, overwrite_take h.le]
  le := hk

lemma Writing.read_write [Inhabited β] {data bs : List β} (h : Writing d fd data n) :
    (d.write fd n bs).read = d.read :=
  read_update h.wellFormed h.temp _

/-- The rename of a writer that is alone and done succeeds, and the file then holds its data. -/
theorem Writing.read_rename {data : List β} (h : Writing d fd data data.length) :
    ∃ d', d.rename = some d' ∧ d'.WellFormed ∧ d'.read = some data := by
  refine ⟨{ d with path := some fd, temp := none }, by rw [rename, h.temp]; rfl, ?_, ?_⟩
  · refine ⟨?_, ?_, ?_⟩
    · rintro _ ⟨⟩
      exact h.wellFormed.temp_lt fd h.temp
    · rintro _ ⟨⟩
    · rintro _ ⟨⟩
  · rw [read, Option.map_some, h.content, List.take_length]

/-- A whole replacement by a writer that is alone. -/
def replace [Inhabited β] (d : Disk β) (data : List β) : Option (Disk β) :=
  (d.openTruncate.1.write d.openTruncate.2 0 data).rename

lemma read_replace [Inhabited β] (hd : d.WellFormed) (data : List β) :
    ∃ d', d.replace data = some d' ∧ d'.WellFormed ∧ d'.read = some data := by
  have h := (writing_openTruncate hd data).write (k := data.length) (by omega)
  rw [Nat.zero_add, List.drop_zero, List.take_length] at h
  exact h.read_rename

end Disk

end Ket.Lib
