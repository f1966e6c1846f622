import CppRaft.Wire.Decimal
import Mathlib.Data.Finmap

/-!
# The configuration file

`MprpcConfig` reads a file of lines `key=value`.  The lines come out of `fgets`
with a buffer of 512 bytes, spaces around a line, a key or a value are dropped,
comments and lines without `=` are skipped, and the first value of a key stays.
-/

namespace CppRaft.Rpc

open CppRaft.Wire.Decimal (Text)

/-- `m_configMap`. -/
abbrev ConfigMap : Type :=
  Finmap fun _ : Text => Text

/-! ## Lines -/

/-- `fgets` with room for a number of bytes, not counting the zero byte: what
it reads, what is left and whether it has met the end of the file. -/
def fgets : Nat → Text → Text × Text × Bool
  | 0, rest => ([], rest, false)
  | _ + 1, [] => ([], [], true)
  | room + 1, character :: rest =>
      if character = '\n' then (['\n'], rest, false)
      else
        let (line, left, eof) := fgets room rest
        (character :: line, left, eof)

theorem fgets_line {room : Nat} {line rest : Text} (short : line.length < room)
    (whole : '\n' ∉ line) : fgets room (line ++ '\n' :: rest) = (line ++ ['\n'], rest, false) := by
  induction line generalizing room with
  | nil =>
      obtain ⟨room, rfl⟩ := Nat.exists_eq_succ_of_ne_zero (Nat.ne_of_gt short)
      simp [fgets]
  | cons first line ih =>
      obtain ⟨room, rfl⟩ := Nat.exists_eq_succ_of_ne_zero (Nat.ne_of_gt (Nat.zero_lt_of_lt short))
      rw [List.mem_cons, not_or] at whole
      obtain ⟨apart, whole⟩ := whole
      have inner := ih (Nat.lt_of_succ_lt_succ short) whole
      simp [fgets, inner, Ne.symm apart]

/-! ## Parsing -/

/-- `find_first_not_of(' ')`. -/
def findFirstNotSpace (text : Text) : Option Nat :=
  text.findIdx? fun character => character ≠ ' '

/-- `find_last_not_of(' ')`. -/
def findLastNotSpace (text : Text) : Option Nat :=
  (text.reverse.findIdx? fun character => character ≠ ' ').map fun idx => text.length - 1 - idx

/-- `MprpcConfig::Trim`. -/
def trim (srcBuf : Text) : Text :=
  let srcBuf :=
    match findFirstNotSpace srcBuf with
    | some idx => srcBuf.drop idx
    | none => srcBuf
  match findLastNotSpace srcBuf with
  | some idx => srcBuf.take (idx + 1)
  | none => srcBuf

/-- `unordered_map::insert` keeps the value of a key that is there. -/
def insertNew (configMap : ConfigMap) (key value : Text) : ConfigMap :=
  if key ∈ configMap then configMap else configMap.insert key value

/-- One round of the loop of `LoadConfigFile`, with the bytes in `buf`. -/
def loadLine (configMap : ConfigMap) (buf : Text) : ConfigMap :=
  let readBuf := trim (buf.takeWhile fun character => character ≠ '\x00')
  if readBuf.head? = some '#' ∨ readBuf = [] then configMap
  else
    match readBuf.findIdx? fun character => character = '=' with
    | none => configMap
    | some idx =>
        let key := trim (readBuf.take idx)
        -- Without a line end the rest of the text is the value.
        let value :=
          match (readBuf.drop idx).findIdx? fun character => character = '\n' with
          | some endidx => (readBuf.drop (idx + 1)).take (endidx - 1)
          | none => readBuf.drop (idx + 1)
        insertNew configMap key (trim value)

/-- The loop of `LoadConfigFile`. -/
def loadLines : Nat → ConfigMap → Text → ConfigMap
  | 0, configMap, _ => configMap
  | fuel + 1, configMap, content =>
      match fgets 511 content with
      | (buf, rest, eof) =>
          let configMap := loadLine configMap buf
          if eof then configMap else loadLines fuel configMap rest

/-- `MprpcConfig::LoadConfigFile`. -/
def loadConfigFile (content : Text) : ConfigMap :=
  loadLines (content.length + 1) ∅ content

/-- `MprpcConfig::Load`. -/
def load (configMap : ConfigMap) (key : Text) : Text :=
  match configMap.lookup key with
  | none => []
  | some value => value

/-! ## The loop ends -/

theorem fgets_length {room : Nat} {content line left : Text} {eof : Bool}
    (read : fgets room content = (line, left, eof)) :
    line.length + left.length = content.length := by
  induction content generalizing room line with
  | nil => cases room <;> cases read <;> rfl
  | cons first rest ih =>
      cases room with
      | zero =>
          cases read
          exact Nat.zero_add _
      | succ room =>
          rw [fgets] at read
          split at read
          · cases read
            exact Nat.add_comm ..
          · rcases inner : fgets room rest with ⟨line', left', eof'⟩
            rw [inner] at read
            cases read
            have shorter := ih inner
            rw [List.length_cons, List.length_cons]
            omega

/-- Before the end of the file something is read. -/
theorem fgets_length_pos {room : Nat} {content line left : Text}
    (read : fgets (room + 1) content = (line, left, false)) : 0 < line.length := by
  cases content with
  | nil => cases read
  | cons first rest =>
      rw [fgets] at read
      split at read
      · cases read
        exact Nat.one_pos
      · rw [← (Prod.mk.inj read).1]
        exact Nat.succ_pos _

/-- The rounds are not more than the bytes and one. -/
theorem loadLines_eq {fuel fuel' : Nat} (configMap : ConfigMap) {content : Text}
    (enough : content.length < fuel) (enough' : content.length < fuel') :
    loadLines fuel configMap content = loadLines fuel' configMap content := by
  induction fuel generalizing fuel' configMap content with
  | zero => cases enough
  | succ fuel ih =>
      have positive := Nat.zero_lt_of_lt enough'
      obtain ⟨fuel', rfl⟩ := Nat.exists_eq_succ_of_ne_zero (Nat.ne_of_gt positive)
      rcases read : fgets 511 content with ⟨line, left, eof⟩
      simp only [loadLines, read]
      cases eof with
      | true => rfl
      | false =>
          have whole := fgets_length read
          have some := fgets_length_pos read
          exact ih _ (by omega) (by omega)

/-! ## Reading entries back -/

/-- A key and a value that a line can carry. -/
structure Plain (key value : Text) : Prop where
  inKey : ∀ character ∈ key, character ≠ ' ' ∧ character ≠ '=' ∧ character ≠ '#' ∧
    character ≠ '\n' ∧ character ≠ '\x00'
  inValue : ∀ character ∈ value, character ≠ ' ' ∧ character ≠ '\n' ∧ character ≠ '\x00'
  short : key.length + value.length < 510

theorem trim_eq_self {text : Text} (first : text.head? ≠ some ' ')
    (last : text.getLast? ≠ some ' ') : trim text = text := by
  have front : (match findFirstNotSpace text with
      | some idx => text.drop idx
      | none => text) = text := by
    cases text with
    | nil => rfl
    | cons first' rest =>
        have apart : first' ≠ ' ' := fun same => first (congrArg some same)
        simp [findFirstNotSpace, List.findIdx?_cons, apart]
  rw [trim, front]
  rcases List.eq_nil_or_concat text with rfl | ⟨rest, last', rfl⟩
  · rfl
  · have apart : last' ≠ ' ' := by
      rintro rfl
      exact last (by simp)
    simp [findLastNotSpace, List.findIdx?_cons, apart]

theorem trim_eq_self_of_forall {text : Text} (plain : ∀ character ∈ text, character ≠ ' ') :
    trim text = text :=
  trim_eq_self (fun first => plain _ (List.mem_of_mem_head? first) rfl)
    (fun last => plain _ (List.mem_of_getLast? last) rfl)

/-- The line of an entry. -/
def line (key value : Text) : Text :=
  key ++ '=' :: value ++ ['\n']

theorem Plain.ne_newline {key value : Text} (plain : Plain key value) {character : Char}
    (member : character ∈ key ++ '=' :: value) : character ≠ '\n' := by
  rcases List.mem_append.mp member with inKey | rest
  · exact (plain.inKey _ inKey).2.2.2.1
  · rcases List.mem_cons.mp rest with rfl | inValue
    · decide
    · exact (plain.inValue _ inValue).2.1

theorem takeWhile_line {key value : Text} (plain : Plain key value) :
    (line key value).takeWhile (fun character => character ≠ '\x00') = line key value := by
  refine List.takeWhile_eq_self_iff.mpr fun character member => decide_eq_true ?_
  simp only [line, List.mem_append, List.mem_cons, List.not_mem_nil, or_false] at member
  rcases member with (inKey | rfl | inValue) | rfl
  · exact (plain.inKey _ inKey).2.2.2.2
  · decide
  · exact (plain.inValue _ inValue).2.2
  · decide

/-- Nothing is dropped in front of the key or behind the end of the line. -/
theorem trim_line {key value : Text} (plain : Plain key value) :
    trim (line key value) = line key value := by
  have last : (line key value).getLast? ≠ some ' ' := by
    rw [line, List.getLast?_concat]
    simp
  refine trim_eq_self ?_ last
  cases key with
  | nil => simp [line]
  | cons first rest =>
      have apart := (plain.inKey first List.mem_cons_self).1
      simpa [line] using apart

theorem findIdx?_append_cons {accepts : Char → Bool} {front rest : Text} {character : Char}
    (before : ∀ other ∈ front, accepts other = false) (here : accepts character = true) :
    (front ++ character :: rest).findIdx? accepts = some front.length := by
  rw [List.findIdx?_append, List.findIdx?_eq_none_iff.mpr (by simpa using before)]
  simp [List.findIdx?_cons, here]

theorem loadLine_line {key value : Text} (configMap : ConfigMap) (plain : Plain key value) :
    loadLine configMap (line key value) = insertNew configMap key value := by
  have whole : line key value = key ++ '=' :: (value ++ ['\n']) := by simp [line]
  have noComment : ¬ ((line key value).head? = some '#' ∨ line key value = []) := by
    rw [whole]
    cases key with
    | nil => simp
    | cons first rest =>
        have apart := (plain.inKey first List.mem_cons_self).2.2.1
        simpa using apart
  have equals : (line key value).findIdx? (fun character => character = '=') =
      some key.length := by
    rw [whole]
    exact findIdx?_append_cons
      (fun other member => decide_eq_false (plain.inKey other member).2.1) rfl
  have newline : ((line key value).drop key.length).findIdx? (fun character => character = '\n') =
      some (value.length + 1) := by
    rw [whole, List.drop_left]
    have before : ∀ other ∈ '=' :: value, decide (other = '\n') = false := by
      intro other member
      rcases List.mem_cons.mp member with rfl | inValue
      · decide
      · exact decide_eq_false (plain.inValue other inValue).2.1
    exact findIdx?_append_cons before rfl
  have front : (line key value).take key.length = key := by rw [whole, List.take_left]
  have back : ((line key value).drop (key.length + 1)).take (value.length + 1 - 1) = value := by
    rw [whole]
    simp
  rw [loadLine, takeWhile_line plain, trim_line plain]
  simp only [noComment, if_false, equals, newline, front, back]
  rw [trim_eq_self_of_forall fun other member => (plain.inKey other member).1,
    trim_eq_self_of_forall fun other member => (plain.inValue other member).1]

/-- The entries of a file, in order. -/
def file (entries : List (Text × Text)) : Text :=
  entries.flatMap fun entry => line entry.1 entry.2

theorem loadLines_line {fuel : Nat} {configMap : ConfigMap} {key value rest : Text}
    (plain : Plain key value) :
    loadLines (fuel + 1) configMap (line key value ++ rest) =
      loadLines fuel (insertNew configMap key value) rest := by
  have split : line key value ++ rest = (key ++ '=' :: value) ++ '\n' :: rest := by simp [line]
  have short : (key ++ '=' :: value).length < 511 := by
    have bound := plain.short
    rw [List.length_append, List.length_cons]
    omega
  have read : fgets 511 (key ++ '=' :: value ++ '\n' :: rest) =
      (key ++ '=' :: value ++ ['\n'], rest, false) :=
    fgets_line short fun member => plain.ne_newline member rfl
  rw [split, loadLines, read]
  exact congrArg (loadLines fuel · rest) (loadLine_line configMap plain)

theorem loadLines_file {entries : List (Text × Text)}
    (plain : ∀ entry ∈ entries, Plain entry.1 entry.2) {fuel : Nat} (enough : entries.length < fuel)
    (configMap : ConfigMap) :
    loadLines fuel configMap (file entries) =
      entries.foldl (fun configMap entry => insertNew configMap entry.1 entry.2) configMap := by
  induction entries generalizing fuel configMap with
  | nil =>
      obtain ⟨fuel, rfl⟩ := Nat.exists_eq_succ_of_ne_zero (Nat.ne_of_gt enough)
      rfl
  | cons entry entries ih =>
      obtain ⟨fuel, rfl⟩ := Nat.exists_eq_succ_of_ne_zero (Nat.ne_of_gt (Nat.zero_lt_of_lt enough))
      change loadLines (fuel + 1) configMap (line entry.1 entry.2 ++ file entries) = _
      rw [loadLines_line (plain entry List.mem_cons_self)]
      exact ih (fun other member => plain other (List.mem_cons_of_mem _ member))
        (Nat.lt_of_succ_lt_succ enough) _

/-- `LoadConfigFile` reads every entry of a file. -/
theorem loadConfigFile_file {entries : List (Text × Text)}
    (plain : ∀ entry ∈ entries, Plain entry.1 entry.2) :
    loadConfigFile (file entries) =
      entries.foldl (fun configMap entry => insertNew configMap entry.1 entry.2) ∅ := by
  have more : loadConfigFile (file entries) =
      loadLines ((file entries).length + entries.length + 1) ∅ (file entries) :=
    loadLines_eq ∅ (Nat.lt_succ_self _) (Nat.lt_succ_of_le (Nat.le_add_right ..))
  rw [more]
  exact loadLines_file plain (Nat.lt_succ_of_le (Nat.le_add_left ..)) ∅

theorem lookup_insertNew (configMap : ConfigMap) (key value other : Text) :
    (insertNew configMap key value).lookup other =
      (configMap.lookup other).or (if key = other then some value else none) := by
  unfold insertNew
  split
  · rename_i present
    by_cases same : key = other
    · subst same
      obtain ⟨old, found⟩ := Finmap.mem_iff.mp present
      rw [found, Option.some_or]
    · rw [if_neg same, Option.or_none]
  · rename_i absent
    by_cases same : key = other
    · subst same
      rw [Finmap.lookup_insert, Finmap.lookup_eq_none.mpr absent, if_pos rfl, Option.none_or]
    · rw [Finmap.lookup_insert_of_ne _ (Ne.symm same), if_neg same, Option.or_none]

/-- The first value of a key stays. -/
theorem lookup_foldl_insertNew (entries : List (Text × Text)) (configMap : ConfigMap) (key : Text) :
    (entries.foldl (fun configMap entry => insertNew configMap entry.1 entry.2) configMap).lookup
        key =
      (configMap.lookup key).or ((entries.find? fun entry => entry.1 = key).map Prod.snd) := by
  induction entries generalizing configMap with
  | nil => simp
  | cons entry entries ih =>
      rw [List.foldl_cons, ih, lookup_insertNew, Option.or_assoc, List.find?_cons]
      by_cases same : entry.1 = key
      · simp [same]
      · simp [same]

end CppRaft.Rpc
