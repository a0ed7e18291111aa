import Updatedc.Agent.Store
import Updatedc.Contracts.Inventories
import Updatedc.Lib.Except

/-!
# The rejection record on disk (`updated/src/reject.rs`)

The store sees the rejection record as a set of keys. Its file is a text: one key per line, in
strictly ascending order, with a final newline, and every reader refuses anything else. Here the
file is that text, so that what is **written** and what is **read back** can be compared.

- `Rejections.reject`: one call, with what its file write did.
- `loadRecord_recordText`: every set of well-formed keys within the limit, but the empty one, is
  written as a text that is read back as the same set.
- `Ledger.Sound`: what holds between memory, the dirty flag and the file after every call.
- `Stands.run`: the record on disk refines the set of keys that the store sees, call by call.
-/

namespace Updatedc.Agent.Ledger

open Contracts

/-! ## Keys -/

/-- Split at the first colon. -/
def splitOnce (hash : String) : Option (String × String) :=
  match hash.toList.dropWhile (· ≠ ':') with
  | [] => none
  | _ :: rest => some (String.ofList (hash.toList.takeWhile (· ≠ ':')), String.ofList rest)

/-- Whether this is a well-formed `repository-lineage:digest` key. -/
def isRejectionKey (hash : String) : Bool :=
  (splitOnce hash).any fun (lineage, digest) =>
    isCanonicalSha256 lineage && isCanonicalSha256 digest

def digestKey (hash : String) : Except String String :=
  if !isRejectionKey hash then
    .error s!"invalid rejection key (expected lineage:digest, got {hash.utf8ByteSize} characters)"
  else
    .ok hash

/-! ## The record -/

/-- One line of a record: a key above every key before it. -/
def loadLine (hashes : BTreeSet String) (line : String × Nat) : IoResult (BTreeSet String) := do
  let hash ← (digestKey line.1).mapError fun error =>
    .invalidData s!"malformed rejection record: {error} at line {line.2 + 1}"
  require (hashes.max?.all fun previous => (compare previous hash).isLT)
    (.invalidData ("malformed rejection record: keys are duplicated or unsorted at line " ++
      s!"{line.2 + 1}"))
  let hashes := hashes.insert hash
  require (hashes.size ≤ maxRejectionKeys)
    (.invalidData "rejection record exceeds its key limit")
  return hashes

/-- Read a record. Only a missing file is an empty set. -/
def loadRecord (file : Option String) : IoResult (BTreeSet String) :=
  match file with
  | none => .ok ∅
  | some text =>
    if text.utf8ByteSize > maxRejectionRecordBytes then
      .error (.invalidData "file exceeds its size limit")
    else if text.toList.getLast? ≠ some '\n' then
      .error (.invalidData "malformed rejection record: missing final newline")
    else if text.toList.dropLast = [] then
      .error (.invalidData "malformed rejection record: empty files are not records")
    else
      ((text.toList.dropLast.splitOn '\n').map String.ofList).zipIdx.foldlM loadLine ∅

/-- The text of a set of keys. -/
def recordText (hashes : BTreeSet String) : String :=
  hashes.toList.foldl (fun out hash => (out ++ hash).push '\n') ""

structure Rejections where
  hashes : BTreeSet String
  dirty : Bool

namespace Rejections

def load (file : Option String) : IoResult Rejections := do
  let hashes ← loadRecord file
  return { hashes, dirty := false }

variable (self : Rejections)

/-- Whether these exact bytes were rejected. -/
def isRejected (hash : String) : Bool :=
  (digestKey hash).toOption.any self.hashes.contains

/-- Evidence that may discharge a journal's obligation: a failed write withholds it. -/
def isDurablyRejected (hash : String) : Bool :=
  !self.dirty && self.isRejected hash

/-- Replace the file, with what it holds then. -/
def save (file : Option String) (outcome : WriteOutcome) : IoResult Unit × Option String :=
  let out := recordText self.hashes
  if out.utf8ByteSize > maxRejectionRecordBytes then
    (.error (.invalidInput "rejection record exceeds its byte limit"), file)
  else
    (outcome.result, if outcome.lands then some out else file)

def persist (file : Option String) (outcome : WriteOutcome) :
    IoResult Unit × Rejections × Option String :=
  match self.save file outcome with
  | (.ok (), file) => (.ok (), { self with dirty := false }, file)
  -- A later call for this key must retry the whole write.
  | (.error error, file) => (.error error, { self with dirty := true }, file)

/-- Record a key. The live process suppresses it from here on, written or not. -/
def reject (hash : String) (file : Option String) (outcome : WriteOutcome) :
    IoResult Unit × Rejections × Option String :=
  match digestKey hash with
  | .error error => (.error (.invalidInput error), self, file)
  | .ok hash =>
    if self.hashes.contains hash then
      if self.dirty then self.persist file outcome else (.ok (), self, file)
    else if self.hashes.size ≥ maxRejectionKeys then
      (.error (.invalidInput "rejection record has reached its key limit"), self, file)
    else
      { self with hashes := self.hashes.insert hash }.persist file outcome

end Rejections

/-! ## What is written is read back -/

variable {hash : String} {hashes : BTreeSet String} {rejections : Rejections}

theorem digestKey_ok {key : String} (ok : digestKey hash = .ok key) :
    key = hash ∧ isRejectionKey hash = true := by
  unfold digestKey at ok
  split_ifs at ok with malformed
  exact ⟨(Except.ok.inj ok).symm, by simpa using malformed⟩

theorem digestKey_of_isRejectionKey (wellFormed : isRejectionKey hash = true) :
    digestKey hash = .ok hash := by simp [digestKey, wellFormed]

/-- The two halves of a key. -/
theorem halves_of_isRejectionKey (wellFormed : isRejectionKey hash = true) :
    ∃ lineage digest, hash = lineage ++ ":" ++ digest ∧ isCanonicalSha256 lineage = true ∧
      isCanonicalSha256 digest = true := by
  unfold isRejectionKey splitOnce at wellFormed
  split at wellFormed
  · simp at wellFormed
  · rename_i colon rest found
    simp only [Option.any_some, Bool.and_eq_true] at wellFormed
    have isColon : colon = ':' := by
      have := List.head?_dropWhile_not (fun c => decide (c ≠ ':')) hash.toList
      rw [found] at this
      simpa using this
    refine ⟨_, _, ?_, wellFormed⟩
    rw [← String.toList_inj]
    have whole := List.takeWhile_append_dropWhile (p := fun c => decide (c ≠ ':'))
      (l := hash.toList)
    rw [found, isColon] at whole
    simpa using whole.symm

theorem newline_notMem_of_isCanonicalSha256 {text : String}
    (canonical : isCanonicalSha256 text = true) :
    '\n' ∉ text.toList := by
  intro member
  simp only [isCanonicalSha256, Bool.and_eq_true, List.all_eq_true] at canonical
  exact absurd (canonical.2 '\n' member) (by decide)

theorem newline_notMem_of_isRejectionKey (wellFormed : isRejectionKey hash = true) :
    '\n' ∉ hash.toList := by
  obtain ⟨lineage, digest, rfl, first, second⟩ := halves_of_isRejectionKey wellFormed
  simp [newline_notMem_of_isCanonicalSha256 first, newline_notMem_of_isCanonicalSha256 second]

theorem utf8ByteSize_of_isRejectionKey (wellFormed : isRejectionKey hash = true) :
    hash.utf8ByteSize + 1 = rejectionLineBytes := by
  obtain ⟨lineage, digest, rfl, first, second⟩ := halves_of_isRejectionKey wellFormed
  simp only [isCanonicalSha256, Bool.and_eq_true, beq_iff_eq] at first second
  rw [String.utf8ByteSize_append, String.utf8ByteSize_append, first.1, second.1]
  rfl

theorem toList_foldl_lines (lines : List String) (out : String) :
    (lines.foldl (fun out hash => (out ++ hash).push '\n') out).toList =
      out.toList ++ lines.flatMap fun line => line.toList ++ ['\n'] := by
  induction lines generalizing out with
  | nil => simp
  | cons line rest ih => simp [ih]

theorem utf8ByteSize_foldl_lines (lines : List String)
    (wellFormed : ∀ line ∈ lines, isRejectionKey line = true) (out : String) :
    (lines.foldl (fun out hash => (out ++ hash).push '\n') out).utf8ByteSize =
      out.utf8ByteSize + lines.length * rejectionLineBytes := by
  induction lines generalizing out with
  | nil => simp
  | cons line rest ih =>
    have size := utf8ByteSize_of_isRejectionKey (wellFormed line List.mem_cons_self)
    rw [List.foldl_cons, ih fun other member => wellFormed other (List.mem_cons_of_mem _ member)]
    simp only [String.utf8ByteSize_push, String.utf8ByteSize_append, List.length_cons]
    have newline : ('\n' : Char).utf8Size = 1 := by decide
    rw [newline, Nat.add_mul]
    omega

/-- Lines that end in a newline each, as lines between newlines. -/
theorem flatMap_eq_intercalate (line : List Char) (rest : List (List Char)) :
    (line :: rest).flatMap (· ++ ['\n']) = ['\n'].intercalate (line :: rest) ++ ['\n'] := by
  induction rest generalizing line with
  | nil => simp [List.intercalate]
  | cons next rest ih =>
    rw [List.flatMap_cons, ih]
    simp [List.intercalate]

/-- A well-formed key above every key before it is taken in, within the limit. -/
theorem loadLine_of_above (line : Nat) (wellFormed : isRejectionKey hash = true)
    (above : ∀ previous ∈ hashes, compare previous hash = .lt)
    (fits : (hashes.insert hash).size ≤ maxRejectionKeys) :
    loadLine hashes (hash, line) = .ok (hashes.insert hash) := by
  have sorted : (hashes.max?.all fun previous => (compare previous hash).isLT) = true := by
    cases last : hashes.max? with
    | none => rfl
    | some previous =>
      have member := (Std.ExtTreeSet.max?_eq_some_iff_mem_and_forall.mp last).1
      simp [above previous member]
  simp [loadLine, digestKey_of_isRejectionKey wellFormed, sorted, fits, require, Except.mapError,
    bind, Except.bind, pure, Except.pure]

/-- What an accepted line was. -/
theorem loadLine_ok {next : BTreeSet String} {line : String × Nat}
    (ok : loadLine hashes line = .ok next) :
    isRejectionKey line.1 = true ∧ next = hashes.insert line.1 ∧ next.size ≤ maxRejectionKeys := by
  obtain ⟨hash, named, rest⟩ := Except.bind_ok_iff.mp ok
  obtain ⟨rfl, wellFormed⟩ := digestKey_ok (Except.mapError_ok_iff.mp named)
  obtain ⟨_, _, rest⟩ := Except.bind_ok_iff.mp rest
  obtain ⟨_, fits, rest⟩ := Except.bind_ok_iff.mp rest
  cases rest
  exact ⟨wellFormed, rfl, of_decide_eq_true (require_ok_iff.mp fits)⟩

/-- Ascending keys are all taken in. -/
theorem foldlM_loadLine {lines : List String} (hashes : BTreeSet String) (first : Nat)
    (wellFormed : ∀ line ∈ lines, isRejectionKey line = true)
    (ascending : lines.Pairwise fun line next => compare line next = .lt)
    (above : ∀ previous ∈ hashes, ∀ line ∈ lines, compare previous line = .lt)
    (fits : hashes.size + lines.length ≤ maxRejectionKeys) :
    ∃ loaded, (lines.zipIdx first).foldlM loadLine hashes = .ok loaded ∧
      ∀ key, key ∈ loaded ↔ key ∈ hashes ∨ key ∈ lines := by
  induction lines generalizing hashes first with
  | nil => exact ⟨hashes, rfl, by simp⟩
  | cons line rest ih =>
    obtain ⟨below, ascending⟩ := List.pairwise_cons.mp ascending
    have size : (hashes.insert line).size ≤ hashes.size + 1 := Std.ExtTreeSet.size_insert_le
    rw [List.length_cons] at fits
    have taken := loadLine_of_above first (wellFormed line List.mem_cons_self)
      (fun previous member => above previous member line List.mem_cons_self) (by omega)
    obtain ⟨loaded, accepted, members⟩ := ih (hashes.insert line) (first + 1)
      (fun other member => wellFormed other (List.mem_cons_of_mem _ member)) ascending
      (fun previous member other later => by
        rcases Std.ExtTreeSet.mem_insert.mp member with same | older
        · rw [← Std.LawfulEqCmp.compare_eq_iff_eq.mp same]
          exact below other later
        · exact above previous older other (List.mem_cons_of_mem _ later))
      (by omega)
    refine ⟨loaded, ?_, fun key => ?_⟩
    · rw [List.zipIdx_cons, List.foldlM_cons, taken]
      exact accepted
    · rw [members, Std.ExtTreeSet.mem_insert, Std.LawfulEqCmp.compare_eq_iff_eq, List.mem_cons,
        eq_comm]
      tauto

/-- A set of keys that a record may hold. -/
structure Loadable (hashes : BTreeSet String) : Prop where
  wellFormed : ∀ key ∈ hashes, isRejectionKey key = true
  fits : hashes.size ≤ maxRejectionKeys

theorem loadable_empty : Loadable ∅ where
  wellFormed key member := absurd member Std.ExtTreeSet.not_mem_empty
  fits := by simp

theorem Loadable.insert (loadable : Loadable hashes) {key : String}
    (wellFormed : isRejectionKey key = true) (fits : (hashes.insert key).size ≤ maxRejectionKeys) :
    Loadable (hashes.insert key) where
  wellFormed other member := by
    rcases Std.ExtTreeSet.mem_insert.mp member with same | older
    · rw [← Std.LawfulEqCmp.compare_eq_iff_eq.mp same]
      exact wellFormed
    · exact loadable.wellFormed other older
  fits := fits

/-- The keys of an accepted record are well-formed and within the limit. -/
theorem loadRecord_ok {file : Option String} (ok : loadRecord file = .ok hashes) :
    Loadable hashes := by
  unfold loadRecord at ok
  split at ok
  · cases ok
    exact loadable_empty
  · split_ifs at ok
    refine Except.keeps_foldlM ok (fun line _ before after taken loadable => ?_) loadable_empty
    obtain ⟨wellFormed, rfl, fits⟩ := loadLine_ok taken
    exact loadable.insert wellFormed fits

/-- **What is written is read back**: every set of well-formed keys within the limit, but the
empty one. -/
theorem loadRecord_recordText (loadable : Loadable hashes) (inhabited : hashes.toList ≠ []) :
    (recordText hashes).utf8ByteSize ≤ maxRejectionRecordBytes ∧
      loadRecord (some (recordText hashes)) = .ok hashes := by
  have keys : ∀ line ∈ hashes.toList, isRejectionKey line = true := fun line member =>
    loadable.wellFormed line (Std.ExtTreeSet.mem_toList.mp member)
  have size : (recordText hashes).utf8ByteSize ≤ maxRejectionRecordBytes := by
    unfold recordText
    rw [utf8ByteSize_foldl_lines _ keys, Std.ExtTreeSet.length_toList]
    have bytes : hashes.size * rejectionLineBytes ≤ maxRejectionKeys * rejectionLineBytes :=
      Nat.mul_le_mul_right _ loadable.fits
    have limit : maxRejectionKeys * rejectionLineBytes ≤ maxRejectionRecordBytes := by decide
    simpa using bytes.trans limit
  refine ⟨size, ?_⟩
  have lines : (recordText hashes).toList =
      ['\n'].intercalate (hashes.toList.map String.toList) ++ ['\n'] := by
    unfold recordText
    rw [toList_foldl_lines]
    cases shape : hashes.toList with
    | nil => exact absurd shape inhabited
    | cons line rest =>
      rw [List.map_cons, ← flatMap_eq_intercalate, ← List.map_cons, List.flatMap_map]
      simp
  have split : ((['\n'].intercalate (hashes.toList.map String.toList)).splitOn '\n').map
      String.ofList = hashes.toList := by
    rw [List.splitOn_intercalate]
    · simp
    · intro line member
      obtain ⟨key, there, rfl⟩ := List.mem_map.mp member
      exact newline_notMem_of_isRejectionKey (keys key there)
    · simpa using inhabited
  obtain ⟨loaded, accepted, members⟩ := foldlM_loadLine ∅ 0 keys
    Std.ExtTreeSet.ordered_toList
      (fun previous member => absurd member Std.ExtTreeSet.not_mem_empty)
    (by simpa [Std.ExtTreeSet.length_toList] using loadable.fits)
  have same : loaded = hashes := Std.ExtTreeSet.ext_mem fun key => by simp [members]
  have body : ['\n'].intercalate (hashes.toList.map String.toList) ≠ [] := by
    intro none
    rw [none, List.splitOn_nil] at split
    obtain ⟨line, member⟩ := List.exists_mem_of_ne_nil _ inhabited
    have blank : line = "" := by simpa [← split] using member
    have size := utf8ByteSize_of_isRejectionKey (keys line member)
    subst blank
    cases size
  unfold loadRecord
  dsimp only
  rw [if_neg (by omega), lines, if_neg (by simp), List.dropLast_concat,
    if_neg body, split, accepted,
    same]

/-! ## Calls -/

/-- A live process: what it holds in memory, and the file. -/
structure Live where
  rejections : Rejections
  file : Option String

namespace Live

/-- One call of `reject`, with its result. -/
def reject (self : Live) (hash : String) (outcome : WriteOutcome) : IoResult Unit × Live :=
  let (result, rejections, file) := self.rejections.reject hash self.file outcome
  (result, { rejections, file })

/-- A sequence of calls. -/
def run (self : Live) (calls : List (String × WriteOutcome)) : Live :=
  calls.foldl (fun live call => (live.reject call.1 call.2).2) self

end Live

/-- How memory, the dirty flag and the file stand to each other. -/
structure Sound (live : Live) : Prop where
  /-- Memory is a set of keys that a record may hold. -/
  loadable : Loadable live.rejections.hashes
  /-- The file is a record, and of nothing that memory does not hold. -/
  known : ∃ loaded, loadRecord live.file = .ok loaded ∧
    ∀ key ∈ loaded, key ∈ live.rejections.hashes
  /-- Unless the last write failed, the file is the record of memory. -/
  clean : live.rejections.dirty = false → loadRecord live.file = .ok live.rejections.hashes

/-- Opening a record. -/
theorem sound_of_load {file : Option String} (opened : Rejections.load file = .ok rejections) :
    Sound ⟨rejections, file⟩ := by
  obtain ⟨hashes, loaded, rest⟩ := Except.bind_ok_iff.mp opened
  cases rest
  exact ⟨loadRecord_ok loaded, ⟨hashes, loaded, fun _ member => member⟩, fun _ => loaded⟩

/-- What a call leaves. -/
structure Kept (live : Live) (result : IoResult Unit) (next : Live) : Prop where
  sound : Sound next
  remembered : ∀ key ∈ live.rejections.hashes, key ∈ next.rejections.hashes
  /-- What was in the file stays there. -/
  onDisk : ∀ before after, loadRecord live.file = .ok before → loadRecord next.file = .ok after →
    ∀ key ∈ before, key ∈ after
  /-- Success means that memory is in the file. -/
  durable : result = .ok () → loadRecord next.file = .ok next.rejections.hashes

/-- A whole-set write, from a file that lags behind memory. -/
theorem kept_persist {file : Option String} (outcome : WriteOutcome)
    (loadable : Loadable rejections.hashes) (inhabited : rejections.hashes.toList ≠ [])
    {loaded : BTreeSet String} (accepted : loadRecord file = .ok loaded)
    (known : ∀ key ∈ loaded, key ∈ rejections.hashes) :
    let persisted := rejections.persist file outcome
    Kept ⟨rejections, file⟩ persisted.1 ⟨persisted.2.1, persisted.2.2⟩ ∧
      persisted.2.1.hashes = rejections.hashes := by
  obtain ⟨size, readBack⟩ := loadRecord_recordText loadable inhabited
  have grows : ∀ before after, loadRecord file = .ok before →
      loadRecord (some (recordText rejections.hashes)) = .ok after →
        ∀ key ∈ before, key ∈ after := by
    intro before after here there key member
    cases accepted.symm.trans here
    cases readBack.symm.trans there
    exact known key member
  have stays : ∀ before after, loadRecord file = .ok before → loadRecord file = .ok after →
      ∀ key ∈ before, key ∈ after := by
    intro before after here there key member
    cases here.symm.trans there
    exact member
  unfold Rejections.persist Rejections.save
  rw [if_neg (by omega)]
  cases outcome with
  | written =>
    exact ⟨⟨⟨loadable, ⟨_, readBack, fun _ member => member⟩, fun _ => readBack⟩,
      fun _ member => member, grows, fun _ => readBack⟩, rfl⟩
  | lost transient =>
    exact ⟨⟨⟨loadable, ⟨loaded, accepted, known⟩, nofun⟩, fun _ member => member,
      stays, nofun⟩, rfl⟩
  | unsynced transient =>
    exact ⟨⟨⟨loadable, ⟨_, readBack, fun _ member => member⟩, nofun⟩,
      fun _ member => member, grows, nofun⟩, rfl⟩

theorem Kept.refl {live : Live} (sound : Sound live) {result : IoResult Unit}
    (durable : result = .ok () → loadRecord live.file = .ok live.rejections.hashes) :
    Kept live result live where
  sound := sound
  remembered _ member := member
  onDisk before after here there key member := by
    cases here.symm.trans there
    exact member
  durable := durable

/-- **One call**: memory and file only grow, and a call that returns success has put its key into
both. -/
theorem kept_reject {live : Live} (sound : Sound live) (hash : String) (outcome : WriteOutcome) :
    Kept live (live.reject hash outcome).1 (live.reject hash outcome).2 ∧
      ((live.reject hash outcome).1 = .ok () →
        hash ∈ (live.reject hash outcome).2.rejections.hashes) := by
  obtain ⟨rejections, file⟩ := live
  obtain ⟨loaded, accepted, known⟩ := sound.known
  unfold Live.reject Rejections.reject
  cases named : digestKey hash with
  | error error => exact ⟨.refl sound nofun, nofun⟩
  | ok key =>
    obtain ⟨rfl, wellFormed⟩ := digestKey_ok named
    dsimp only
    split_ifs with present dirty full
    · -- a retry of the whole write
      have member := Std.ExtTreeSet.contains_iff_mem.mp present
      obtain ⟨kept, same⟩ := kept_persist outcome sound.loadable
        (List.ne_nil_of_mem (Std.ExtTreeSet.mem_toList.mpr member)) accepted known
      refine ⟨kept, fun _ => ?_⟩
      rw [same]
      exact member
    · exact ⟨.refl sound fun _ => sound.clean (by simpa using dirty),
        fun _ => Std.ExtTreeSet.contains_iff_mem.mp present⟩
    · exact ⟨.refl sound nofun, nofun⟩
    · have size : (rejections.hashes.insert key).size ≤ rejections.hashes.size + 1 :=
        Std.ExtTreeSet.size_insert_le
      have older : ∀ other ∈ rejections.hashes, other ∈ rejections.hashes.insert key :=
        fun other member => Std.ExtTreeSet.mem_insert.mpr (.inr member)
      have member : key ∈ rejections.hashes.insert key := Std.ExtTreeSet.mem_insert_self
      have room : (rejections.hashes.insert key).size ≤ maxRejectionKeys := by omega
      obtain ⟨kept, same⟩ := @kept_persist ⟨rejections.hashes.insert key, rejections.dirty⟩ file
        outcome (sound.loadable.insert wellFormed room)
        (List.ne_nil_of_mem (Std.ExtTreeSet.mem_toList.mpr member)) loaded accepted
        fun other there => older other (known other there)
      refine ⟨⟨kept.sound, fun other there => kept.remembered other (older other there),
        kept.onDisk, kept.durable⟩, fun _ => ?_⟩
      rw [same]
      exact member

/-! ## Every sequence of calls -/

theorem run_append (live : Live) (before after : List (String × WriteOutcome)) :
    live.run (before ++ after) = (live.run before).run after := List.foldl_append

theorem sound_run {live : Live} (sound : Sound live) (calls : List (String × WriteOutcome)) :
    Sound (live.run calls) := by
  induction calls generalizing live with
  | nil => exact sound
  | cons call rest ih => exact ih (kept_reject sound call.1 call.2).1.sound

theorem remembered_run {live : Live} (sound : Sound live)
    (calls : List (String × WriteOutcome)) {key : String} (held : key ∈ live.rejections.hashes) :
    key ∈ (live.run calls).rejections.hashes := by
  induction calls generalizing live with
  | nil => exact held
  | cons call rest ih =>
    have kept := (kept_reject sound call.1 call.2).1
    exact ih kept.sound (kept.remembered key held)

theorem onDisk_run {live : Live} (sound : Sound live) (calls : List (String × WriteOutcome))
    {key : String} {before : BTreeSet String} (accepted : loadRecord live.file = .ok before)
    (held : key ∈ before) :
    ∃ after, loadRecord (live.run calls).file = .ok after ∧ key ∈ after := by
  induction calls generalizing live before with
  | nil => exact ⟨before, accepted, held⟩
  | cons call rest ih =>
    have kept := (kept_reject sound call.1 call.2).1
    obtain ⟨next, loaded, -⟩ := kept.sound.known
    exact ih kept.sound loaded (kept.onDisk before next accepted loaded key held)

theorem isRejected_iff (loadable : Loadable rejections.hashes) {key : String} :
    rejections.isRejected key = true ↔ key ∈ rejections.hashes := by
  unfold Rejections.isRejected
  constructor
  · intro rejected
    cases named : digestKey key with
    | error error => simp [named, Except.toOption] at rejected
    | ok same =>
      obtain ⟨rfl, -⟩ := digestKey_ok named
      simpa [named, Except.toOption] using rejected
  · intro member
    simpa [digestKey_of_isRejectionKey (loadable.wellFormed key member),
      Except.toOption] using member

/-- **The rejection ledger.** After every sequence of calls on any record that opens, with valid
or malformed keys and writes that succeed, fail, or fail after the file was replaced: what memory
accepted stays there, what is reported durable is in the file, the file opens, and it holds nothing
that memory does not, and all that memory held at a call that returned success, with its key. -/
theorem ledger_sound (file : Option String) (start : Rejections)
    (opened : Rejections.load file = .ok start) (before after : List (String × WriteOutcome)) :
    let live : Live := ⟨start, file⟩
    let middle := live.run before
    let last := live.run (before ++ after)
    (∀ key, middle.rejections.isRejected key = true → last.rejections.isRejected key = true) ∧
    ∃ reloaded, Rejections.load last.file = .ok reloaded ∧
      (∀ key, last.rejections.isDurablyRejected key = true → reloaded.isRejected key = true) ∧
      (∀ key, reloaded.isRejected key = true → last.rejections.isRejected key = true) ∧
      ∀ key outcome rest, after = (key, outcome) :: rest →
        (middle.reject key outcome).1 = .ok () →
          ∀ other, other = key ∨ middle.rejections.isRejected other = true →
            reloaded.isRejected other = true := by
  intro live middle last
  have soundMiddle := sound_run (sound_of_load opened) before
  have split : last = middle.run after := run_append live before after
  have soundLast : Sound last := split ▸ sound_run soundMiddle after
  obtain ⟨loaded, accepted, known⟩ := soundLast.known
  have reloads (key : String) :
      (⟨loaded, false⟩ : Rejections).isRejected key = true ↔ key ∈ loaded :=
    isRejected_iff (loadRecord_ok accepted)
  refine ⟨fun key rejected => ?_, ⟨loaded, false⟩, ?_, fun key durable => ?_,
    fun key rejected => ?_,
    fun key outcome rest shape succeeded other written => ?_⟩
  · rw [isRejected_iff soundMiddle.loadable] at rejected
    rw [isRejected_iff soundLast.loadable, split]
    exact remembered_run soundMiddle after rejected
  · simp only [Rejections.load, accepted]
    rfl
  · obtain ⟨clean, rejected⟩ := Bool.and_eq_true_iff.mp durable
    rw [isRejected_iff soundLast.loadable] at rejected
    rw [reloads, Except.ok.inj (accepted.symm.trans (soundLast.clean (by simpa using clean)))]
    exact rejected
  · rw [isRejected_iff soundLast.loadable]
    exact known key ((reloads key).mp rejected)
  · -- memory was in the file right after the call, and nothing leaves the file
    obtain ⟨kept, held⟩ := kept_reject soundMiddle key outcome
    have inMemory : other ∈ (middle.reject key outcome).2.rejections.hashes := by
      rcases written with rfl | earlier
      · exact held succeeded
      · exact kept.remembered other ((isRejected_iff soundMiddle.loadable).mp earlier)
    obtain ⟨final, acceptedFinal, member⟩ :=
      onDisk_run kept.sound rest (kept.durable succeeded) inMemory
    have same : last.file = ((middle.reject key outcome).2.run rest).file := by
      rw [split, shape]
      rfl
    rw [reloads, Except.ok.inj (accepted.symm.trans (same ▸ acceptedFinal))]
    exact member

/-- Sixty-four times one digit, twice. -/
def sampleKey (digit : Char) : String :=
  String.ofList (List.replicate 64 'f' ++ ':' :: List.replicate 64 digit)

theorem ledger_sound_two_keys :
    let live : Live := ⟨⟨∅, false⟩, none⟩
    let last := live.run [(sampleKey 'b', .written), (sampleKey 'a', .unsynced true)]
    ∃ reloaded, Rejections.load last.file = .ok reloaded ∧
      reloaded.isRejected (sampleKey 'b') = true := by
  obtain ⟨-, reloaded, opens, -, -, succeeded⟩ := ledger_sound none ⟨∅, false⟩ rfl []
    [(sampleKey 'b', .written), (sampleKey 'a', .unsynced true)]
  exact ⟨reloaded, opens, succeeded _ _ _ rfl (by decide +kernel) _ (.inl rfl)⟩

/-! ## The store's view -/

/-- The spelling of a digest is canonical. -/
theorem isCanonicalSha256_hex (digest : Sha256) : isCanonicalSha256 digest.hex = true := by
  have digits : ∀ n < 16, ∃ c, Char.ofNat (if n < 10 then 48 + n else 87 + n) = c ∧
      c.utf8Size = 1 ∧ (c.isDigit || ('a' ≤ c && c ≤ 'f')) = true := by
    simp only [exists_eq_left']
    decide
  have ascii : ∀ chars : List Char, (∀ c ∈ chars, c.utf8Size = 1) →
      (String.ofList chars).utf8ByteSize = chars.length := by
    intro chars small
    rw [String.utf8ByteSize_ofList]
    induction chars with
    | nil => rfl
    | cons c rest ih =>
      rw [String.utf8Len_cons, small c List.mem_cons_self,
        ih fun other member => small other (List.mem_cons_of_mem _ member), List.length_cons]
  have known : ∀ c ∈ digest.hex.toList, c.utf8Size = 1 ∧
      (c.isDigit || ('a' ≤ c && c ≤ 'f')) = true := by
    intro c member
    rw [Sha256.hex, String.toList_ofList] at member
    obtain ⟨i, -, rfl⟩ := List.mem_map.mp member
    obtain ⟨_, rfl, fine⟩ := digits _ (Nat.mod_lt (digest.toNat >>> (4 * (63 - i))) (by decide))
    exact fine
  have size := ascii digest.hex.toList fun c member => (known c member).1
  rw [String.ofList_toList] at size
  simp only [isCanonicalSha256, Bool.and_eq_true, beq_iff_eq, List.all_eq_true]
  refine ⟨?_, fun c member => by simpa using (known c member).2⟩
  rw [size]
  simp [Sha256.hex]

/-- A key as the record spells it. -/
def keyText (key : RejectionKey) : String := key.lineage.hex ++ ":" ++ key.digest.hex

theorem isRejectionKey_keyText (key : RejectionKey) : isRejectionKey (keyText key) = true := by
  have noColon : ∀ c ∈ key.lineage.hex.toList, decide (c ≠ ':') = true := by
    intro c member
    have canonical := isCanonicalSha256_hex key.lineage
    simp only [isCanonicalSha256, Bool.and_eq_true, List.all_eq_true] at canonical
    refine decide_eq_true fun same => ?_
    subst same
    exact absurd (canonical.2 _ member) (by decide)
  have text : (keyText key).toList = key.lineage.hex.toList ++ ':' :: key.digest.hex.toList := by
    simp [keyText]
  unfold isRejectionKey splitOnce
  rw [text, List.dropWhile_append_of_pos noColon, List.takeWhile_append_of_pos noColon]
  simp [isCanonicalSha256_hex]

theorem keyText_injective : Function.Injective keyText := by
  intro a b same
  have length (digest : Sha256) : digest.hex.toList.length = 64 := by simp [Sha256.hex]
  have texts : (a.lineage.hex.toList ++ [':']) ++ a.digest.hex.toList =
      (b.lineage.hex.toList ++ [':']) ++ b.digest.hex.toList := by
    simpa [keyText] using congrArg String.toList same
  obtain ⟨first, second⟩ := List.append_inj texts (by simp [length])
  have lineage := Sha256.hex_injective (String.toList_inj.mp (List.append_cancel_right first))
  have digest := Sha256.hex_injective (String.toList_inj.mp second)
  cases a
  cases b
  cases lineage
  cases digest
  rfl

/-- The record is the spelling of these keys. -/
def Spells (record : BTreeSet String) (keys : Finset RejectionKey) : Prop :=
  ∀ hash, hash ∈ record ↔ ∃ key ∈ keys, keyText key = hash

section
variable {record : BTreeSet String} {keys : Finset RejectionKey}

theorem Spells.mem (spells : Spells record keys) {key : RejectionKey} :
    keyText key ∈ record ↔ key ∈ keys := by
  rw [spells]
  constructor
  · rintro ⟨other, member, same⟩
    exact keyText_injective same ▸ member
  · exact fun member => ⟨key, member, rfl⟩

theorem Spells.size (spells : Spells record keys) : record.size = keys.card := by
  have nodup : record.toList.Nodup := Std.ExtTreeSet.ordered_toList.imp fun below same => by
    subst same
    simp at below
  have image : record.toList.toFinset = keys.image keyText := by
    ext hash
    rw [List.mem_toFinset, Std.ExtTreeSet.mem_toList, spells, Finset.mem_image]
  rw [← Std.ExtTreeSet.length_toList, ← List.toFinset_card_of_nodup nodup, image,
    Finset.card_image_of_injective _ keyText_injective]

theorem Spells.insert (spells : Spells record keys) (key : RejectionKey) :
    Spells (record.insert (keyText key)) (insert key keys) := by
  intro hash
  rw [Std.ExtTreeSet.mem_insert, Std.LawfulEqCmp.compare_eq_iff_eq, spells]
  simp

end

/-- The process and its file stand for the store's keys and their file. -/
structure Stands (live : Live) (rejected : Agent.Rejections) (file : Finset RejectionKey) :
    Prop where
  memory : Spells live.rejections.hashes rejected.hashes
  dirty : live.rejections.dirty = rejected.dirty
  disk : ∃ loaded, loadRecord live.file = .ok loaded ∧ Spells loaded file

section
variable {live : Live} {rejected : Agent.Rejections} {file : Finset RejectionKey}

theorem Stands.persist (stands : Stands live rejected file)
    (loadable : Loadable live.rejections.hashes) {key : RejectionKey}
    (member : key ∈ rejected.hashes) (outcome : WriteOutcome) :
    let call := live.rejections.persist live.file outcome
    let step := rejected.persist file outcome
    call.1 = step.1 ∧ Stands ⟨call.2.1, call.2.2⟩ step.2.1 step.2.2 := by
  obtain ⟨memory, -, disk⟩ := stands
  obtain ⟨size, readBack⟩ := loadRecord_recordText loadable
    (List.ne_nil_of_mem (Std.ExtTreeSet.mem_toList.mpr (memory.mem.mpr member)))
  -- neither view ever reaches the byte limit: the key limit is the tighter one
  have fits : rejected.hashes.card * rejectionLineBytes ≤ maxRejectionRecordBytes := by
    rw [← memory.size]
    exact (Nat.mul_le_mul_right _ loadable.fits).trans (by decide)
  unfold Rejections.persist Rejections.save Agent.Rejections.persist
  rw [if_neg (Nat.not_lt.mpr size), if_neg (Nat.not_lt.mpr fits)]
  cases outcome with
  | written => exact ⟨rfl, memory, rfl, _, readBack, memory⟩
  | lost transient => exact ⟨rfl, memory, rfl, disk⟩
  | unsynced transient => exact ⟨rfl, memory, rfl, _, readBack, memory⟩

/-- One call of each comes to the same. -/
theorem Stands.reject (stands : Stands live rejected file) (sound : Sound live)
    (key : RejectionKey) (outcome : WriteOutcome) :
    let call := live.reject (keyText key) outcome
    let step := rejected.reject key file outcome
    call.1 = step.1 ∧ Stands call.2 step.2.1 step.2.2 := by
  have named := digestKey_of_isRejectionKey (isRejectionKey_keyText key)
  unfold Live.reject Rejections.reject Agent.Rejections.reject
  rw [named]
  dsimp only
  by_cases member : key ∈ rejected.hashes
  · have contained := Std.ExtTreeSet.contains_iff_mem.mpr (stands.memory.mem.mpr member)
    rw [if_pos contained, if_pos member, stands.dirty]
    cases rejected.dirty with
    | false => exact ⟨rfl, stands⟩
    | true => exact stands.persist sound.loadable member outcome
  · have absent : ¬ live.rejections.hashes.contains (keyText key) = true := fun contained =>
      member (stands.memory.mem.mp (Std.ExtTreeSet.contains_iff_mem.mp contained))
    rw [if_neg absent, if_neg member, stands.memory.size]
    split_ifs with full
    · exact ⟨rfl, stands⟩
    · have grown : Stands ⟨⟨live.rejections.hashes.insert (keyText key), live.rejections.dirty⟩,
          live.file⟩ ⟨insert key rejected.hashes, rejected.dirty⟩ file :=
        ⟨stands.memory.insert key, stands.dirty, stands.disk⟩
      have size : (live.rejections.hashes.insert (keyText key)).size ≤
          live.rejections.hashes.size + 1 := Std.ExtTreeSet.size_insert_le
      rw [stands.memory.size] at size
      exact grown.persist
        (sound.loadable.insert (isRejectionKey_keyText key) (by omega))
        (Finset.mem_insert_self key _) outcome

/-- The store's keys after a sequence of calls, and their file. -/
def runStore (rejected : Agent.Rejections) (file : Finset RejectionKey) :
    List (RejectionKey × WriteOutcome) → Agent.Rejections × Finset RejectionKey
  | [] => (rejected, file)
  | call :: rest =>
    let step := rejected.reject call.1 file call.2
    runStore step.2.1 step.2.2 rest

/-- **The record on disk refines the store's set of keys**: after every sequence of calls the
process stands for the store, so the two answer alike and hold the same keys. -/
theorem Stands.run (stands : Stands live rejected file) (sound : Sound live)
    (calls : List (RejectionKey × WriteOutcome)) :
    Stands (live.run (calls.map fun call => (keyText call.1, call.2)))
      (runStore rejected file calls).1 (runStore rejected file calls).2 := by
  induction calls generalizing live rejected file with
  | nil => exact stands
  | cons call rest ih =>
    rw [List.map_cons, Live.run, List.foldl_cons, runStore]
    exact ih (stands.reject sound call.1 call.2).2 (kept_reject sound _ call.2).1.sound

end

end Updatedc.Agent.Ledger
