import CppRaft.Rpc.Config
import CppRaft.Transition.Run
import Mathlib.Logic.Function.Basic

/-!
# How the nodes find each other

Every node appends its address and its port to the configuration file when it
starts to serve, each line with one write.  Servers and clients read the file
some time later and take the nodes from number 0 on up to the first one whose
address is missing.
-/

namespace CppRaft.Rpc

open CppRaft.Transition CppRaft.Wire
open CppRaft.Wire.Decimal (Text atoi)

/-! ## Announcements -/

/-- The bytes of an `in_addr`. -/
structure Address where
  first : UInt8
  second : UInt8
  third : UInt8
  fourth : UInt8
deriving DecidableEq, Repr

/-- `inet_ntoa`. -/
def inetNtoa (address : Address) : Text :=
  Decimal.toString address.first.toNat ++ '.' :: (Decimal.toString address.second.toNat ++
    '.' :: (Decimal.toString address.third.toNat ++
      '.' :: Decimal.toString address.fourth.toNat))

/-- What a node announces. -/
inductive Item
  | ip
  | port
deriving DecidableEq, Repr

/-- The end of the key. -/
def Item.suffix : Item → Text
  | .ip => ['i', 'p']
  | .port => ['p', 'o', 'r', 't']

/-- The key of an item of a node. -/
def nodeKey (nodeIndex : Nat) (item : Item) : Text :=
  ['n', 'o', 'd', 'e'] ++ Decimal.toString nodeIndex ++ item.suffix

/-- The host and the port that each process runs with. -/
structure Endpoints where
  address : Nat → Address
  port : Nat → Int16

/-- The value of an item of a node. -/
def Endpoints.value (endpoints : Endpoints) (nodeIndex : Nat) : Item → Text
  | .ip => inetNtoa (endpoints.address nodeIndex)
  | .port => Decimal.toString (endpoints.port nodeIndex).toInt

/-- The file, and the lines that are in it. -/
structure Announcing where
  file : Text
  announced : Nat × Item → Bool

/-- The file is emptied before the nodes start. -/
def Announcing.start : Announcing where
  file := []
  announced := fun _ => false

/-- `RpcProvider::Run` writes the address and then the port. -/
def Announcing.step (endpoints : Endpoints) (s : Announcing) :
    Nat × Item → Option (Announcing × List (Text × Text))
  | (nodeIndex, item) =>
      if nodeIndex < 2147483648 ∧ s.announced (nodeIndex, item) = false ∧
          (item = .port → s.announced (nodeIndex, .ip) = true) then
        let key := nodeKey nodeIndex item
        let value := endpoints.value nodeIndex item
        some ({ file := s.file ++ line key value
                announced := Function.update s.announced (nodeIndex, item) true }, [(key, value)])
      else none

/-- The runs of the processes up to a moment. -/
abbrev AnnounceRun (endpoints : Endpoints) (entries : List (Text × Text)) (s : Announcing) : Prop :=
  Run (Announcing.step endpoints) anyStep Announcing.start entries s

/-! ## Readers -/

/-- The loop over the nodes of `KvServer::KvServer` and of `Clerk::Init`. -/
def ipPortVt (config : ConfigMap) : Nat → Nat → List (Text × Int16)
  | 0, _ => []
  | remaining + 1, i =>
      let nodeIp := load config (nodeKey i .ip)
      let nodePortStr := load config (nodeKey i .port)
      if nodeIp = [] then []
      else (nodeIp, Int16.ofInt (atoi nodePortStr)) :: ipPortVt config remaining (i + 1)

/-- The nodes that a reader of the file connects to. -/
def servers (content : Text) : List (Text × Int16) :=
  ipPortVt (loadConfigFile content) 2147483646 0

/-- The loop takes the nodes up to the first one without an address. -/
theorem ipPortVt_eq (config : ConfigMap) (remaining i : Nat) :
    ∃ count, ipPortVt config remaining i =
        (List.range' i count).map (fun k =>
          (load config (nodeKey k .ip), Int16.ofInt (atoi (load config (nodeKey k .port))))) ∧
      (∀ k, i ≤ k → k < i + count → load config (nodeKey k .ip) ≠ []) ∧
      (count < remaining → load config (nodeKey (i + count) .ip) = []) := by
  induction remaining generalizing i with
  | zero =>
      refine ⟨0, rfl, fun k low high => ?_, fun less => absurd less (Nat.lt_irrefl 0)⟩
      omega
  | succ remaining ih =>
      by_cases missing : load config (nodeKey i .ip) = []
      · refine ⟨0, by simp [ipPortVt, missing], fun k low high => ?_, fun _ => missing⟩
        omega
      · obtain ⟨count, rest, present, stops⟩ := ih (i + 1)
        refine ⟨count + 1, ?_, fun k low high => ?_, fun less => ?_⟩
        · rw [ipPortVt, List.range'_succ, List.map_cons, ← rest]
          exact if_neg missing
        · rcases Nat.eq_or_lt_of_le low with rfl | later
          · exact missing
          · exact present k later (by omega)
        · rw [← Nat.add_assoc, Nat.add_right_comm]
          exact stops (by omega)

/-! ## Keys and values -/

/-- A character that stands for itself in a key and in a value. -/
def Clean (character : Char) : Prop :=
  character ≠ ' ' ∧ character ≠ '=' ∧ character ≠ '#' ∧ character ≠ '\n' ∧ character ≠ '\x00'

instance (character : Char) : Decidable (Clean character) :=
  inferInstanceAs (Decidable (_ ∧ _))

theorem clean_of_mem_toString {value : Int} {character : Char}
    (member : character ∈ Decimal.toString value) : Clean character := by
  rcases Decimal.isDigit_or_eq_of_mem_toString member with digit | rfl
  · refine ⟨?_, ?_, ?_, ?_, ?_⟩ <;>
      · rintro rfl
        exact absurd digit (by decide)
  · decide

theorem clean_of_mem_nodeKey {nodeIndex : Nat} {item : Item} {character : Char}
    (member : character ∈ nodeKey nodeIndex item) : Clean character := by
  have word : ∀ other ∈ ['n', 'o', 'd', 'e'], Clean other := by
    simp [Clean]
  have ends : ∀ other ∈ item.suffix, Clean other := by
    cases item <;> simp [Item.suffix, Clean]
  rcases List.mem_append.mp member with front | back
  · rcases List.mem_append.mp front with node | number
    · exact word character node
    · exact clean_of_mem_toString number
  · exact ends character back

theorem clean_of_mem_inetNtoa {address : Address} {character : Char}
    (member : character ∈ inetNtoa address) : Clean character := by
  have dot : Clean '.' := by decide
  simp only [inetNtoa, List.mem_append, List.mem_cons] at member
  rcases member with number | rfl | number | rfl | number | rfl | number
  · exact clean_of_mem_toString number
  · exact dot
  · exact clean_of_mem_toString number
  · exact dot
  · exact clean_of_mem_toString number
  · exact dot
  · exact clean_of_mem_toString number

theorem length_nodeKey_le {nodeIndex : Nat} (bound : nodeIndex < 2147483648) (item : Item) :
    (nodeKey nodeIndex item).length ≤ 19 := by
  have number : (Decimal.toString nodeIndex).length ≤ 10 + 1 :=
    Decimal.length_toString_le (by decide) (by omega)
  have ends : item.suffix.length ≤ 4 := by
    cases item <;> decide
  rw [nodeKey, List.length_append, List.length_append]
  simp only [List.length_cons, List.length_nil]
  omega

theorem length_inetNtoa_le (address : Address) : (inetNtoa address).length ≤ 19 := by
  have number : ∀ byte : UInt8, (Decimal.toString byte.toNat).length ≤ 3 + 1 := by
    intro byte
    have small := byte.toNat_lt
    exact Decimal.length_toString_le (by decide) (by omega)
  have first := number address.first
  have second := number address.second
  have third := number address.third
  have fourth := number address.fourth
  simp only [inetNtoa, List.length_append, List.length_cons]
  omega

theorem inetNtoa_ne_nil (address : Address) : inetNtoa address ≠ [] :=
  List.append_ne_nil_of_right_ne_nil _ (List.cons_ne_nil _ _)

/-- A line carries what a node announces. -/
theorem plain_value (endpoints : Endpoints) {nodeIndex : Nat} (bound : nodeIndex < 2147483648)
    (item : Item) : Plain (nodeKey nodeIndex item) (endpoints.value nodeIndex item) := by
  have value : ∀ character ∈ endpoints.value nodeIndex item, Clean character := by
    intro character member
    cases item with
    | ip => exact clean_of_mem_inetNtoa member
    | port => exact clean_of_mem_toString member
  have short : (endpoints.value nodeIndex item).length ≤ 19 := by
    cases item with
    | ip => exact length_inetNtoa_le _
    | port =>
        have low := (endpoints.port nodeIndex).le_toInt
        have high := (endpoints.port nodeIndex).toInt_lt
        have digits : (Decimal.toString (endpoints.port nodeIndex).toInt).length ≤ 5 + 1 :=
          Decimal.length_toString_le (by decide) (by omega)
        exact digits.trans (by decide)
  have key := length_nodeKey_le bound item
  refine ⟨fun _ => clean_of_mem_nodeKey, fun character member => ?_, by omega⟩
  obtain ⟨space, _, _, newline, zero⟩ := value character member
  exact ⟨space, newline, zero⟩

/-- The digits of a key end where its suffix begins. -/
theorem nodeKey_inj {i j : Nat} {item item' : Item} :
    nodeKey i item = nodeKey j item' ↔ i = j ∧ item = item' := by
  constructor
  · intro same
    have digits : ∀ (k : Nat) (item : Item),
        (Decimal.toString k ++ item.suffix).takeWhile Char.isDigit = Decimal.toString k := by
      intro k item
      have all : ∀ character ∈ Decimal.toString k, character.isDigit = true :=
        fun _ => Decimal.isDigit_of_mem_toDigits
      rw [List.takeWhile_append_of_pos all]
      cases item <;> exact List.append_nil _
    have tails : Decimal.toString i ++ item.suffix = Decimal.toString j ++ item'.suffix := by
      simpa [nodeKey] using same
    have numbers := congrArg (List.takeWhile Char.isDigit) tails
    rw [digits, digits] at numbers
    rw [numbers] at tails
    refine ⟨Int.ofNat_inj.mp (Decimal.toString_injective numbers), ?_⟩
    have ends := List.append_cancel_left tails
    cases item <;> cases item' <;> first | rfl | exact absurd ends (by decide)
  · rintro ⟨rfl, rfl⟩
    rfl

/-! ## What is in the file -/

variable {endpoints : Endpoints} {entries : List (Text × Text)} {s t : Announcing}

/-- The entries that the nodes have written so far. -/
structure Written (endpoints : Endpoints) (entries : List (Text × Text)) (s : Announcing) :
    Prop where
  file : s.file = file entries
  entry : ∀ entry ∈ entries, ∃ i item, i < 2147483648 ∧ s.announced (i, item) = true ∧
    entry = (nodeKey i item, endpoints.value i item)
  present : ∀ i item, s.announced (i, item) = true →
    (nodeKey i item, endpoints.value i item) ∈ entries

theorem written_start (endpoints : Endpoints) : Written endpoints [] .start where
  file := rfl
  entry := by simp
  present := by simp [Announcing.start]

theorem Written.step (written : Written endpoints entries s) {action : Nat × Item}
    {emitted : List (Text × Text)} (taken : s.step endpoints action = some (t, emitted)) :
    Written endpoints (entries ++ emitted) t := by
  obtain ⟨nodeIndex, item⟩ := action
  rw [Announcing.step, Option.ite_none_right_eq_some] at taken
  obtain ⟨⟨bound, _⟩, same⟩ := taken
  cases same
  have kept : ∀ {place : Nat × Item}, s.announced place = true →
      Function.update s.announced (nodeIndex, item) true place = true := by
    intro place before
    rw [Function.update_apply]
    split
    · rfl
    · exact before
  refine ⟨?_, fun entry member => ?_, fun i item' here => ?_⟩
  · simp only [written.file, Rpc.file, List.flatMap_append, List.flatMap_cons, List.flatMap_nil,
      List.append_nil]
  · rcases List.mem_append.mp member with old | new
    · obtain ⟨i, item', small, before, same⟩ := written.entry entry old
      exact ⟨i, item', small, kept before, same⟩
    · exact ⟨nodeIndex, item, bound, Function.update_self .., List.mem_singleton.mp new⟩
  · by_cases same : (i, item') = (nodeIndex, item)
    · cases same
      exact List.mem_append_right _ (List.mem_singleton_self _)
    · dsimp only at here
      rw [Function.update_of_ne same] at here
      exact List.mem_append_left _ (written.present i item' here)

theorem written_of_run (run : AnnounceRun endpoints entries s) : Written endpoints entries s := by
  apply run.invariant
  · exact written_start endpoints
  · intro entries s action t emitted written _ taken
    exact written.step taken

/-- A reader sees what has been announced. -/
theorem Written.load (written : Written endpoints entries s) (i : Nat) (item : Item) :
    load (loadConfigFile s.file) (nodeKey i item) =
      if s.announced (i, item) = true then endpoints.value i item else [] := by
  have plain : ∀ entry ∈ entries, Plain entry.1 entry.2 := by
    intro entry member
    obtain ⟨j, item', bound, _, rfl⟩ := written.entry entry member
    exact plain_value endpoints bound item'
  have found : (loadConfigFile s.file).lookup (nodeKey i item) =
      (entries.find? fun entry => entry.1 = nodeKey i item).map Prod.snd := by
    rw [written.file, loadConfigFile_file plain, lookup_foldl_insertNew, Finmap.lookup_empty,
      Option.none_or]
  rw [Rpc.load, found]
  cases first : entries.find? fun entry => entry.1 = nodeKey i item with
  | none =>
      have missing : s.announced (i, item) ≠ true := by
        intro here
        have absent := List.find?_eq_none.mp first _ (written.present i item here)
        exact absent (decide_eq_true rfl)
      rw [if_neg missing]
      rfl
  | some entry =>
      have same : entry.1 = nodeKey i item := by
        have accepted := List.find?_some first
        exact of_decide_eq_true accepted
      obtain ⟨j, item', _, here, rfl⟩ := written.entry entry (List.mem_of_find?_eq_some first)
      obtain ⟨rfl, rfl⟩ := nodeKey_inj.mp same
      rw [if_pos here]
      rfl

/-- A reader gets the nodes up to the first one that has not written its
address, with 0 for a port that is not there yet. -/
theorem Written.servers (written : Written endpoints entries s) :
    ∃ count, servers s.file = (List.range count).map (fun i =>
        (inetNtoa (endpoints.address i),
          if s.announced (i, .port) = true then endpoints.port i else 0)) ∧
      (∀ i < count, s.announced (i, .ip) = true) ∧
      (count < 2147483646 → s.announced (count, .ip) = false) := by
  obtain ⟨count, same, present, stops⟩ := ipPortVt_eq (loadConfigFile s.file) 2147483646 0
  have announced : ∀ i < count, s.announced (i, .ip) = true := by
    intro i less
    by_contra missing
    have empty := written.load i .ip
    rw [if_neg missing] at empty
    exact present i (Nat.zero_le i) (by omega) empty
  refine ⟨count, ?_, announced, fun less => ?_⟩
  · rw [Rpc.servers, same, List.range_eq_range']
    refine List.map_congr_left fun i member => ?_
    have less : i < count := by simpa using List.mem_range'_1.mp member
    rw [written.load i .ip, written.load i .port, if_pos (announced i less)]
    refine Prod.ext rfl ?_
    dsimp only
    split
    · exact (congrArg Int16.ofInt (Decimal.atoi_toString _)).trans (Int16.ofInt_toInt _)
    · rfl
  · have empty := stops less
    rw [Nat.zero_add, written.load count .ip] at empty
    by_contra there
    rw [if_pos (Bool.eq_true_of_not_eq_false there)] at empty
    exact inetNtoa_ne_nil _ empty

/-- Whatever the order in which the processes write their lines, a reader gets,
at every moment, the nodes up to the first one that has not written its address,
each with its own address, and with its port or with 0 as long as the port is
not there.  When a number of nodes have announced all, these are the nodes that
it gets. -/
theorem servers_of_run (run : AnnounceRun endpoints entries s) :
    (∃ count, servers s.file = (List.range count).map (fun i =>
        (inetNtoa (endpoints.address i),
          if s.announced (i, .port) = true then endpoints.port i else 0)) ∧
      (∀ i < count, s.announced (i, .ip) = true) ∧
      (count < 2147483646 → s.announced (count, .ip) = false)) ∧
    ∀ n ≤ 2147483646, (∀ i item, s.announced (i, item) = decide (i < n)) →
      servers s.file = (List.range n).map fun i =>
        (inetNtoa (endpoints.address i), endpoints.port i) := by
  have seen := (written_of_run run).servers
  refine ⟨seen, fun n bound all => ?_⟩
  obtain ⟨count, same, announced, stops⟩ := seen
  obtain rfl : count = n := by
    rcases Nat.lt_trichotomy count n with less | equal | greater
    · have missing := stops (by omega)
      rw [all, decide_eq_true less] at missing
      cases missing
    · exact equal
    · have there := announced n greater
      rw [all, decide_eq_true_iff] at there
      omega
  rw [same]
  refine List.map_congr_left fun i member => ?_
  rw [if_pos]
  rw [all, decide_eq_true_iff]
  exact List.mem_range.mp member

/-- Three nodes on two hosts. -/
def threeNodes : Endpoints where
  address i := if i = 1 then ⟨10, 0, 0, 7⟩ else ⟨127, 0, 1, 1⟩
  port i := 20000 + Int16.ofNat i

/-- Node 2 has announced all, and node 1 has not announced its port. -/
theorem servers_of_run_threeNodes :
    ∃ entries s, AnnounceRun threeNodes entries s ∧ entries.length = 5 ∧
      ∃ count, servers s.file = (List.range count).map (fun i =>
        (inetNtoa (threeNodes.address i),
          if s.announced (i, .port) = true then threeNodes.port i else 0)) ∧
      (∀ i < count, s.announced (i, .ip) = true) ∧
      (count < 2147483646 → s.announced (count, .ip) = false) := by
  obtain ⟨entries, s, run, checked⟩ := exists_run_of_exec (Announcing.step threeNodes) anyStep
    Announcing.start [(2, .ip), (0, .ip), (2, .port), (1, .ip), (0, .port)]
    (fun result => result.2.length = 5) (by decide +kernel)
  exact ⟨entries, s, run, of_decide_eq_true checked, (servers_of_run run).1⟩

end CppRaft.Rpc
