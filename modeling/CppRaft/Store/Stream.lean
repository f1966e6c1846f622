import Mathlib.Logic.Function.Basic
import Mathlib.Data.List.Induction
import Mathlib.Data.List.TakeWhile

/-!
# File streams over named byte strings

The part of the C++ file streams that a small text store uses.  A file is a
named byte string, an output stream is a file together with a write position
and the bytes that its buffer still holds back, and `operator>>` into a string
skips white space and stops at the next white space.  Opening for output, with
the default mode of `std::ofstream` or with `in | out | trunc`, empties the
file, and closing writes the buffer out.  When a buffer passes bytes on before
that is the choice of the library, here a parameter.
-/

namespace CppRaft.Store

universe u

/-- The contents of a `std::string`, of a `bytes` field or of a file. -/
abbrev Bytes := List UInt8

/-- `std::isspace` in the classic locale. -/
def isSpace (byte : UInt8) : Bool :=
  byte == 32 || (9 ≤ byte && byte ≤ 13)

/-- The string that `stream >> word` extracts from a file with this content. -/
def extractWord (content : Bytes) : Bytes :=
  (content.dropWhile isSpace).takeWhile fun byte => !isSpace byte

/-- The first word of `content` is followed by at least one more byte. -/
def WordTerminated (content : Bytes) : Prop :=
  (extractWord content).length < (content.dropWhile isSpace).length

instance (content : Bytes) : Decidable (WordTerminated content) :=
  inferInstanceAs (Decidable (_ < _))

theorem not_isSpace_of_mem_extractWord {content : Bytes} {byte : UInt8}
    (member : byte ∈ extractWord content) : isSpace byte = false := by
  have accepted := List.mem_takeWhile_imp member
  simpa using accepted

/-- A string is read back whole exactly when it contains no white space. -/
theorem extractWord_eq_self_iff {content : Bytes} :
    extractWord content = content ↔ ∀ byte ∈ content, isSpace byte = false := by
  constructor
  · intro whole byte member
    rw [← whole] at member
    exact not_isSpace_of_mem_extractWord member
  · intro word
    have kept : content.dropWhile isSpace = content := by
      cases content with
      | nil => rfl
      | cons first rest =>
          exact List.dropWhile_cons_of_neg (by simp [word first List.mem_cons_self])
    rw [extractWord, kept, List.takeWhile_eq_self_iff]
    intro byte member
    simp [word byte member]

/-- When two strings stand one after the other in a file, extraction returns
the second one exactly in these cases: it has no white space, and either the
first is all white space or its first word already is the second string and
ends before the first string does. -/
theorem extractWord_append_eq_right_iff {earlier latest : Bytes} :
    extractWord (earlier ++ latest) = latest ↔
      (∀ byte ∈ latest, isSpace byte = false) ∧
        ((∀ byte ∈ earlier, isSpace byte = true) ∨
          extractWord earlier = latest ∧ WordTerminated earlier) := by
  by_cases spaces : ∀ byte ∈ earlier, isSpace byte = true
  · have skipped : extractWord (earlier ++ latest) = extractWord latest := by
      rw [extractWord, List.dropWhile_append, List.dropWhile_eq_nil_iff.mpr spaces]
      rfl
    rw [skipped, extractWord_eq_self_iff]
    exact ⟨fun word => ⟨word, Or.inl spaces⟩, fun both => both.1⟩
  · have nonempty : ¬ (earlier.dropWhile isSpace).isEmpty := by
      simpa [List.isEmpty_iff, List.dropWhile_eq_nil_iff] using spaces
    have kept : (earlier ++ latest).dropWhile isSpace =
        earlier.dropWhile isSpace ++ latest := by
      rw [List.dropWhile_append, if_neg nonempty]
    by_cases terminated : WordTerminated earlier
    · have firstWord : extractWord (earlier ++ latest) = extractWord earlier := by
        rw [extractWord, kept, List.takeWhile_append, if_neg]
        · rfl
        · exact Nat.ne_of_lt terminated
      rw [firstWord]
      constructor
      · rintro rfl
        exact ⟨fun _ => not_isSpace_of_mem_extractWord, Or.inr ⟨rfl, terminated⟩⟩
      · rintro ⟨_, allSpaces | ⟨same, _⟩⟩
        · exact absurd allSpaces spaces
        · exact same
    · -- The last word of `earlier` runs into `latest`, so more than `latest` is read.
      have joined : extractWord (earlier ++ latest) =
          earlier.dropWhile isSpace ++ latest.takeWhile fun byte => !isSpace byte := by
        rw [extractWord, kept, List.takeWhile_append, if_pos]
        exact Nat.le_antisymm (List.takeWhile_sublist _).length_le (Nat.le_of_not_lt terminated)
      constructor
      · intro whole
        have word : ∀ byte ∈ latest, isSpace byte = false := by
          intro byte member
          rw [← whole] at member
          exact not_isSpace_of_mem_extractWord member
        have latestKept : (latest.takeWhile fun byte => !isSpace byte) = latest := by
          rw [List.takeWhile_eq_self_iff]
          intro byte member
          simp [word byte member]
        rw [joined, latestKept, List.append_left_eq_self] at whole
        exact absurd (by rw [whole]; rfl) nonempty
      · rintro ⟨_, allSpaces | ⟨_, ends⟩⟩
        · exact absurd allSpaces spaces
        · exact absurd ends terminated

/-- `latest` stands as the first word in `content`: only white space is before
it, and it ends where `content` does or at white space. -/
def FirstWord (content latest : Bytes) : Prop :=
  if latest = [] then ∀ byte ∈ content, isSpace byte = true
  else (∀ byte ∈ latest, isSpace byte = false) ∧
    ∃ blanks rest, content = blanks ++ (latest ++ rest) ∧
      (∀ byte ∈ blanks, isSpace byte = true) ∧ ∀ byte ∈ rest.head?, isSpace byte = true

/-- Extraction returns the first word. -/
theorem extractWord_eq_iff {content latest : Bytes} :
    extractWord content = latest ↔ FirstWord content latest := by
  rw [FirstWord]
  split
  next empty =>
    subst empty
    rw [← List.dropWhile_eq_nil_iff]
    constructor
    · intro nothing
      cases rest : content.dropWhile isSpace with
      | nil => rfl
      | cons first later =>
          have stops : isSpace first = false := by
            have head := List.head?_dropWhile_not isSpace content
            rw [rest] at head
            simpa using head
          simp [extractWord, rest, stops] at nothing
    · intro nothing
      rw [extractWord, nothing, List.takeWhile_nil]
  next nonempty =>
    constructor
    · rintro rfl
      refine ⟨fun _ => not_isSpace_of_mem_extractWord, content.takeWhile isSpace,
        (content.dropWhile isSpace).dropWhile fun byte => !isSpace byte, ?_, ?_, ?_⟩
      · rw [extractWord, List.takeWhile_append_dropWhile, List.takeWhile_append_dropWhile]
      · intro byte member
        exact List.mem_takeWhile_imp member
      · intro byte head
        have stops := List.head?_dropWhile_not (fun byte => !isSpace byte)
          (content.dropWhile isSpace)
        rw [Option.mem_def.mp head] at stops
        simpa using stops
    · rintro ⟨word, blanks, rest, rfl, spaces, ends⟩
      have kept : (latest ++ rest).dropWhile isSpace = latest ++ rest := by
        cases latest with
        | nil => exact absurd rfl nonempty
        | cons first later =>
            exact List.dropWhile_cons_of_neg (by simp [word first List.mem_cons_self])
      have stops : (rest.takeWhile fun byte => !isSpace byte) = [] := by
        cases rest with
        | nil => rfl
        | cons first later => simp [ends first rfl]
      rw [extractWord, List.dropWhile_append_of_pos spaces, kept,
        List.takeWhile_append_of_pos (by simpa using word), stops, List.append_nil]

/-! ## Buffers -/

/-- The policy of a file buffer: of the bytes that it holds back and the bytes
of the next write, given by their numbers, how many go on to the file. -/
structure FileBuf where
  passed : Nat → Nat → Nat

/-- The buffer of libstdc++ (`basic_filebuf::xsputn`) has room for 8191 bytes.
A write that does not fit goes to the file behind all that was held back.  In
older versions so does every write of 1024 bytes or more. -/
def FileBuf.libstdcxx : FileBuf where
  passed pending data := if pending + data < 8191 then 0 else pending + data

/-- What is in the file and what is held back after one more write. -/
def FileBuf.accept (buf : FileBuf) (content : Bytes × Bytes) (data : Bytes) : Bytes × Bytes :=
  let bytes := content.2 ++ data
  let passed := buf.passed content.2.length data.length
  (content.1 ++ bytes.take passed, bytes.drop passed)

/-- What is in the file and what is held back after `writes`. -/
def FileBuf.settle (buf : FileBuf) (writes : List Bytes) : Bytes × Bytes :=
  writes.foldl buf.accept ([], [])

@[simp]
theorem FileBuf.settle_append_singleton (buf : FileBuf) (writes : List Bytes) (data : Bytes) :
    buf.settle (writes ++ [data]) = buf.accept (buf.settle writes) data := by
  simp [settle]

/-- A buffer loses and reorders nothing. -/
theorem FileBuf.settle_flatten (buf : FileBuf) (writes : List Bytes) :
    (buf.settle writes).1 ++ (buf.settle writes).2 = writes.flatten := by
  induction writes using List.reverseRecOn with
  | nil => rfl
  | append_singleton earlier data ih =>
      rw [settle_append_singleton, accept, List.append_assoc, List.take_append_drop,
        ← List.append_assoc, ih, List.flatten_append, List.flatten_singleton]

/-- Short writes stay in the buffer of libstdc++. -/
theorem FileBuf.settle_libstdcxx {writes : List Bytes} (short : writes.flatten.length < 8191) :
    libstdcxx.settle writes = ([], writes.flatten) := by
  induction writes using List.reverseRecOn with
  | nil => rfl
  | append_singleton earlier data ih =>
      rw [List.flatten_append, List.flatten_singleton, List.length_append] at short
      have nothing : libstdcxx.passed earlier.flatten.length data.length = 0 := if_pos short
      rw [settle_append_singleton, ih (by omega), accept, nothing]
      simp

variable {φ : Type u} [DecidableEq φ]

/-- Named byte strings; a missing file is `none`. -/
abbrev Files (φ : Type u) := φ → Option Bytes

/-- A `std::ofstream`: the open file, if any, the write position, and the bytes
that were written to the stream and not yet to the file. -/
structure OutStream (φ : Type u) where
  file : Option φ
  position : Nat
  pending : Bytes
deriving DecidableEq

/-- A stream with no open file. -/
def OutStream.closed : OutStream φ :=
  ⟨none, 0, []⟩

/-- `open(name)` with mode `out`, or with `in | out | trunc`: the file is
created or emptied and writing starts at its beginning. -/
def openTruncate (files : Files φ) (name : φ) : Files φ × OutStream φ :=
  (Function.update files name (some []), ⟨some name, 0, []⟩)

/-- The file with `data` written at `position`. -/
def put (files : Files φ) (name : φ) (position : Nat) (data : Bytes) : Files φ :=
  let content := (files name).getD []
  Function.update files name
    (some (content.take position ++ data ++ content.drop (position + data.length)))

/-- `stream << data`: the buffer takes the bytes, and passes on to the file what
it does not hold back. -/
def OutStream.write (buf : FileBuf) (stream : OutStream φ) (files : Files φ) (data : Bytes) :
    Files φ × OutStream φ :=
  match stream.file with
  | none => (files, stream)
  | some name =>
      let bytes := stream.pending ++ data
      let passed := buf.passed stream.pending.length data.length
      (put files name stream.position (bytes.take passed),
        ⟨some name, stream.position + (bytes.take passed).length, bytes.drop passed⟩)

/-- `close()`: what the buffer holds back goes to the file. -/
def OutStream.close (stream : OutStream φ) (files : Files φ) : Files φ × OutStream φ :=
  match stream.file with
  | none => (files, stream)
  | some name => (put files name stream.position stream.pending, .closed)

/-- Open `name` for reading, extract one word and close it again; a missing
file gives the empty string. -/
def readWord (files : Files φ) (name : φ) : Bytes :=
  extractWord ((files name).getD [])

/-- `stream` is open on `name`; the file holds the first part of `content`, at
whose end the stream stands, and the buffer the second. -/
def AtEnd (files : Files φ) (stream : OutStream φ) (name : φ) (content : Bytes × Bytes) : Prop :=
  files name = some content.1 ∧ stream = ⟨some name, content.1.length, content.2⟩

theorem atEnd_openTruncate (files : Files φ) (name : φ) :
    AtEnd (openTruncate files name).1 (openTruncate files name).2 name ([], []) := by
  simp [AtEnd, openTruncate]

theorem openTruncate_other (files : Files φ) {name other : φ} (distinct : other ≠ name) :
    (openTruncate files name).1 other = files other :=
  Function.update_of_ne distinct _ _

/-- Writing at the end of a file appends. -/
theorem AtEnd.write {files : Files φ} {stream : OutStream φ} {name : φ} {content : Bytes × Bytes}
    (atEnd : AtEnd files stream name content) (buf : FileBuf) (data : Bytes) :
    AtEnd (stream.write buf files data).1 (stream.write buf files data).2 name
      (buf.accept content data) := by
  obtain ⟨stored, rfl⟩ := atEnd
  simp [AtEnd, OutStream.write, put, FileBuf.accept, stored]

theorem AtEnd.write_other {files : Files φ} {stream : OutStream φ} {name : φ}
    {content : Bytes × Bytes} (atEnd : AtEnd files stream name content) (buf : FileBuf)
    (data : Bytes) {other : φ} (distinct : other ≠ name) :
    (stream.write buf files data).1 other = files other := by
  obtain ⟨_, rfl⟩ := atEnd
  exact Function.update_of_ne distinct _ _

/-- A closed file holds all that was written. -/
theorem AtEnd.close {files : Files φ} {stream : OutStream φ} {name : φ} {content : Bytes × Bytes}
    (atEnd : AtEnd files stream name content) :
    (stream.close files).1 name = some (content.1 ++ content.2) := by
  obtain ⟨stored, rfl⟩ := atEnd
  simp [OutStream.close, put, stored]

theorem AtEnd.close_other {files : Files φ} {stream : OutStream φ} {name : φ}
    {content : Bytes × Bytes} (atEnd : AtEnd files stream name content) {other : φ}
    (distinct : other ≠ name) : (stream.close files).1 other = files other := by
  obtain ⟨_, rfl⟩ := atEnd
  exact Function.update_of_ne distinct _ _

omit [DecidableEq φ] in
theorem AtEnd.readWord {files : Files φ} {stream : OutStream φ} {name : φ}
    {content : Bytes × Bytes} (atEnd : AtEnd files stream name content) :
    readWord files name = extractWord content.1 := by
  simp [Store.readWord, atEnd.1]

end CppRaft.Store
