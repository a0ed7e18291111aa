import Updatedc.HealthProxy.Membership

/-!
# Programming a HAProxy instance (`updated-healthproxy/src/haproxy.rs`)

The proxy programs server states over the Runtime API: commands joined by `; ` on one line, the
words of a command separated by blanks. A line must fit the instance's buffer, so commands are
packed greedily into batches. The node and backend names are written into the line verbatim;
`isBalancerSafe` refuses every name that would end its word or its command.

`readBatch` is the instance's side: it splits the line at `;` and reads each command by its words.
Which blanks separate words is the instance's own matter (`RuntimeApi`).
**What it reads from the batches is one command per desired member, in order, with that member's
state.** The argument follows the packing: appending `; ` and a command to a batch appends that
command to what is read from it (`readBatch_append`).
-/

namespace Updatedc.HealthProxy

open Contracts

/-! ## The batches -/

/-- What to program this cycle, and the servers this process then owns. An empty `observed` is the
shutdown drain: everything it owned is drained. -/
def desiredMembers (managed : BTreeSet String) (observed : List Member) :
    List Member × BTreeSet String :=
  if observed.isEmpty then
    (managed.toList.map fun node => { node, address := "", ready := false }, managed)
  else (observed, .ofList (observed.map Member.node))

/-- `desired_state`. -/
def desiredState (ready : Bool) : String := if ready then "ready" else "drain"

/-- HAProxy's default `tune.bufsize`. -/
def haproxyBufsize : Nat := 16384

/-- Half the buffer, to leave room for its reserve. -/
def maxBatchBytes : Nat := haproxyBufsize / 2

/-- The bytes a batch of this length occupies on the wire, its newline included. -/
def lineBytes (batch : Nat) : Nat := batch + "\n".utf8ByteSize

/-- `SEPARATOR`. -/
def separator : String := "; "

/-- The command that puts a member in its state. -/
def stateCommand (backend : String) (member : Member) : String :=
  s!"set server {backend}/{member.node} state {desiredState member.ready}"

/-- One turn of the loop: the command joins the last batch if the line still fits. -/
def pushCommand (batches : List String) (command : String) : List String :=
  match batches.getLast? with
  | some batch =>
    if lineBytes (batch.utf8ByteSize + separator.utf8ByteSize + command.utf8ByteSize)
        ≤ maxBatchBytes then
      batches.dropLast ++ [batch ++ separator ++ command]
    else batches ++ [command]
  | none => batches ++ [command]

/-- The batches of one cycle, packed greedily. -/
def stateBatches (backend : String) (members : List Member) : List String :=
  members.foldl (fun batches member => pushCommand batches (stateCommand backend member)) []

/-! ## What an instance reads -/

/-- The blanks an instance separates words at: the space is one, and they are all whitespace. -/
class RuntimeApi where
  isBlank : Char → Bool
  space : isBlank ' ' = true
  whitespace : ∀ c, isBlank c = true → isWhitespace c = true

/-- The commands on a line. -/
def splitCommands (line : String) : List (List Char) := line.toList.splitOn ';'

/-- The words of a command. -/
def splitWords [RuntimeApi] (command : List Char) : List (List Char) :=
  (command.splitOnP RuntimeApi.isBlank).filter (· ≠ [])

/-- The server and state a `set server` command names. -/
def readWords : List (List Char) → Option (String × Bool)
  | [set, server, name, state, value] =>
    if set = "set".toList ∧ server = "server".toList ∧ state = "state".toList then
      if value = "ready".toList then some (String.ofList name, true)
      else if value = "drain".toList then some (String.ofList name, false)
      else none
    else none
  | _ => none

/-- What an instance makes of a line. -/
def readBatch [RuntimeApi] (line : String) : List (Option (String × Bool)) :=
  (splitCommands line).map fun command => readWords (splitWords command)

/-! ## A name is one word of one command -/

/-- Characters that end neither a word nor a command. -/
def isSolid (word : List Char) : Bool := word.all fun c => c != ';' && !isWhitespace c

theorem isSolid_append (a b : List Char) : isSolid (a ++ b) = (isSolid a && isSolid b) :=
  List.all_append

theorem isSolid.command {word : List Char} (solid : isSolid word = true) : ';' ∉ word := by
  intro here
  have := List.all_eq_true.mp solid ';' here
  simp at this

theorem isSolid.word [RuntimeApi] {word : List Char} (solid : isSolid word = true) :
    ∀ c ∈ word, RuntimeApi.isBlank c = false := by
  intro c here
  have := List.all_eq_true.mp solid c here
  simp only [Bool.and_eq_true, Bool.not_eq_true'] at this
  exact Bool.eq_false_iff.mpr fun blank =>
    Bool.eq_false_iff.mp this.2 (RuntimeApi.whitespace c blank)

theorem isSolid_of_isBalancerSafe {name : String} (safe : isBalancerSafe name = true) :
    isSolid name.toList = true := by
  simp only [isBalancerSafe, Bool.and_eq_true, Bool.not_eq_true'] at safe
  rw [isSolid, List.all_eq_true]
  intro c here
  have := List.any_eq_false.mp safe.2 c here
  simpa using this

variable [RuntimeApi]

theorem splitWords_blank (command : List Char) :
    splitWords (' ' :: command) = splitWords command := by
  have cut := List.splitOnP_append_cons [] command RuntimeApi.space
  rw [List.nil_append] at cut
  simp [splitWords, cut]

/-- A word in front of a blank. -/
theorem splitWords_cons {word : List Char} (rest : List Char) (nonempty : word ≠ [])
    (solid : isSolid word = true) :
    splitWords (word ++ ' ' :: rest) = word :: splitWords rest := by
  have cut := List.splitOnP_append_cons word rest RuntimeApi.space
  simp [splitWords, cut, List.splitOnP_eq_singleton (isSolid.word solid), nonempty]

theorem splitWords_last {word : List Char} (nonempty : word ≠ []) (solid : isSolid word = true) :
    splitWords word = [word] := by
  simp [splitWords, List.splitOnP_eq_singleton (isSolid.word solid), nonempty]

section Commands

variable {backend : String} {member : Member}

omit [RuntimeApi] in
theorem toList_stateCommand : (stateCommand backend member).toList =
    "set".toList ++ ' ' :: ("server".toList ++ ' ' ::
      ((backend ++ "/" ++ member.node).toList ++ ' ' ::
        ("state".toList ++ ' ' :: (desiredState member.ready).toList))) := by
  simp [stateCommand, toString]

omit [RuntimeApi] in
theorem isSolid_desiredState (ready : Bool) : isSolid (desiredState ready).toList = true := by
  cases ready <;> decide

omit [RuntimeApi] in
theorem isSolid_server (backendSafe : isBalancerSafe backend = true)
    (nodeSafe : isBalancerSafe member.node = true) :
    isSolid (backend ++ "/" ++ member.node).toList = true := by
  have slash : isSolid "/".toList = true := by decide
  rw [String.toList_append, String.toList_append, isSolid_append, isSolid_append,
    isSolid_of_isBalancerSafe backendSafe, isSolid_of_isBalancerSafe nodeSafe, slash]
  rfl

/-- A command of safe names reads as its server and state. -/
theorem readWords_stateCommand (backendSafe : isBalancerSafe backend = true)
    (nodeSafe : isBalancerSafe member.node = true) :
    readWords (splitWords (stateCommand backend member).toList) =
      some (backend ++ "/" ++ member.node, member.ready) := by
  have named : (backend ++ "/" ++ member.node).toList ≠ [] := by simp
  have word : (desiredState member.ready).toList ≠ [] := by cases member.ready <;> decide
  rw [toList_stateCommand, splitWords_cons _ (by decide) (by decide),
    splitWords_cons _ (by decide) (by decide),
    splitWords_cons _ named (isSolid_server backendSafe nodeSafe),
    splitWords_cons _ (by decide) (by decide), splitWords_last word (isSolid_desiredState _)]
  simp only [readWords, String.ofList_toList]
  cases member.ready <;> simp [desiredState]

omit [RuntimeApi] in
/-- A command of safe names is one command of its line. -/
theorem splitCommands_stateCommand (backendSafe : isBalancerSafe backend = true)
    (nodeSafe : isBalancerSafe member.node = true) :
    splitCommands (stateCommand backend member) = [(stateCommand backend member).toList] := by
  refine List.splitOnP_eq_singleton fun c here => beq_eq_false_iff_ne.mpr ?_
  rintro rfl
  rw [toList_stateCommand] at here
  simp only [List.mem_append, List.mem_cons] at here
  rcases here with word | blank | word | blank | word | blank | word | blank | word
  · exact isSolid.command (by decide) word
  · exact absurd blank (by decide)
  · exact isSolid.command (by decide) word
  · exact absurd blank (by decide)
  · exact isSolid.command (isSolid_server backendSafe nodeSafe) word
  · exact absurd blank (by decide)
  · exact isSolid.command (by decide) word
  · exact absurd blank (by decide)
  · exact isSolid.command (isSolid_desiredState _) word

theorem readBatch_stateCommand (backendSafe : isBalancerSafe backend = true)
    (nodeSafe : isBalancerSafe member.node = true) :
    readBatch (stateCommand backend member) =
      [some (backend ++ "/" ++ member.node, member.ready)] := by
  rw [readBatch, splitCommands_stateCommand backendSafe nodeSafe, List.map_singleton,
    readWords_stateCommand backendSafe nodeSafe]

end Commands

/-- **Joining two lines joins what is read from them.** -/
theorem readBatch_append (batch command : String) :
    readBatch (batch ++ separator ++ command) = readBatch batch ++ readBatch command := by
  have line : (batch ++ separator ++ command).toList =
      batch.toList ++ ';' :: (' ' :: command.toList) := by
    simp [separator]
  have semicolon : (';' == ';') = true := by decide
  have cut := List.splitOnP_append_cons batch.toList (' ' :: command.toList)
    (p := (· == ';')) semicolon
  have blank : (' ' :: command.toList).splitOn ';' =
      (command.toList.splitOn ';').modifyHead (' ' :: ·) := by
    rw [List.splitOn, List.splitOnP_cons_eq_if_modifyHead, if_neg (by decide)]
    rfl
  rw [readBatch, splitCommands, line, List.splitOn, cut, List.map_append]
  congr 1
  rw [show ((' ' :: command.toList).splitOnP (· == ';')) = _ from blank, readBatch, splitCommands]
  cases commands : command.toList.splitOn ';' with
  | nil => rfl
  | cons head tail =>
    simp only [List.modifyHead_cons, List.map_cons, splitWords_blank]

/-! ## The packing -/

/-- What the loop keeps: the batches read as the commands so far, and a line that holds more than
one command fits. -/
structure Packed (backend : String) (members : List Member) (batches : List String) : Prop where
  reads : batches.flatMap readBatch =
    members.map fun member => some (backend ++ "/" ++ member.node, member.ready)
  fits : ∀ batch ∈ batches,
    lineBytes batch.utf8ByteSize ≤ maxBatchBytes ∨ (splitCommands batch).length = 1

theorem Packed.push {backend : String} {members : List Member} {batches : List String}
    {member : Member} (packed : Packed backend members batches)
    (backendSafe : isBalancerSafe backend = true) (nodeSafe : isBalancerSafe member.node = true) :
    Packed backend (members ++ [member]) (pushCommand batches (stateCommand backend member)) := by
  have command := readBatch_stateCommand backendSafe nodeSafe
  -- A batch of its own.
  have alone : Packed backend (members ++ [member])
      (batches ++ [stateCommand backend member]) := by
    refine ⟨?_, ?_⟩
    · rw [List.flatMap_append, packed.reads, List.flatMap_singleton, command, List.map_append,
        List.map_singleton]
    · intro batch here
      rcases List.mem_append.mp here with before | new
      · exact packed.fits batch before
      · rw [List.mem_singleton.mp new, splitCommands_stateCommand backendSafe nodeSafe]
        exact .inr rfl
  unfold pushCommand
  split
  · next batch last =>
    split
    · next room =>
      have parts : batches = batches.dropLast ++ [batch] :=
        (List.dropLast_append_getLast? batch last).symm
      refine ⟨?_, ?_⟩
      · have reads := packed.reads
        rw [parts, List.flatMap_append, List.flatMap_singleton] at reads
        rw [List.flatMap_append, List.flatMap_singleton, readBatch_append, command,
          ← List.append_assoc, reads, List.map_append, List.map_singleton]
      · intro other here
        rcases List.mem_append.mp here with before | new
        · exact packed.fits other (List.dropLast_subset _ before)
        · rw [List.mem_singleton.mp new]
          left
          simpa [String.utf8ByteSize_append] using room
    · exact alone
  · exact alone

theorem packed_stateBatches {backend : String} {members : List Member}
    (backendSafe : isBalancerSafe backend = true)
    (safe : ∀ member ∈ members, isBalancerSafe member.node = true) :
    Packed backend members (stateBatches backend members) := by
  induction members using List.reverseRecOn with
  | nil => exact ⟨rfl, nofun⟩
  | append_singleton members member ih =>
    rw [stateBatches, List.foldl_append]
    have before := ih fun other here => safe other (List.mem_append_left _ here)
    exact before.push backendSafe (safe member (List.mem_append_right _ List.mem_cons_self))

/-! ## Cycle after cycle -/

/-- The servers the process owns after these cycles. -/
def managedAfter (cycles : List (List Member)) : BTreeSet String :=
  cycles.foldl (fun managed observed => (desiredMembers managed observed).2) ∅

omit [RuntimeApi] in
theorem safe_managedAfter {cycles : List (List Member)}
    (safe : ∀ observed ∈ cycles, ∀ member ∈ observed, isBalancerSafe member.node = true) :
    ∀ node ∈ managedAfter cycles, isBalancerSafe node = true := by
  induction cycles using List.reverseRecOn with
  | nil => intro node here; simp [managedAfter] at here
  | append_singleton cycles observed ih =>
    have before := ih fun other here => safe other (List.mem_append_left _ here)
    have now := safe observed (List.mem_append_right _ List.mem_cons_self)
    intro node here
    simp only [managedAfter, List.foldl_append, List.foldl_cons, List.foldl_nil,
      desiredMembers] at here
    split at here
    · exact before node here
    · have listed : node ∈ observed.map Member.node := by
        simpa [Std.ExtTreeSet.mem_ofList] using here
      obtain ⟨member, mem, rfl⟩ := List.mem_map.mp listed
      exact now member mem

omit [RuntimeApi] in
theorem safe_desiredMembers {cycles : List (List Member)} {observed : List Member}
    (safe : ∀ seen ∈ cycles ++ [observed], ∀ member ∈ seen, isBalancerSafe member.node = true) :
    ∀ member ∈ (desiredMembers (managedAfter cycles) observed).1,
      isBalancerSafe member.node = true := by
  intro member here
  unfold desiredMembers at here
  split at here
  · obtain ⟨node, managed, rfl⟩ := List.mem_map.mp here
    exact safe_managedAfter (fun seen mem => safe seen (List.mem_append_left _ mem)) node
      (Std.ExtTreeSet.mem_toList.mp managed)
  · exact safe observed (List.mem_append_right _ List.mem_cons_self) member here

/-- **Balancer batches are faithful.** In every cycle, the shutdown drain included, an instance
reads one command per desired member, in order and with that member's state, and every line fits
unless it is a single command. -/
theorem stateBatches_faithful {backend : String} (backendSafe : isBalancerSafe backend = true)
    {cycles : List (List Member)} {observed desired : List Member}
    (safe : ∀ seen ∈ cycles ++ [observed], ∀ member ∈ seen, isBalancerSafe member.node = true)
    (desires : desired = (desiredMembers (managedAfter cycles) observed).1) :
    (stateBatches backend desired).flatMap readBatch =
        desired.map (fun member => some (backend ++ "/" ++ member.node, member.ready)) ∧
      ∀ batch ∈ stateBatches backend desired,
        lineBytes batch.utf8ByteSize ≤ maxBatchBytes ∨ (splitCommands batch).length = 1 := by
  subst desires
  have packed := packed_stateBatches backendSafe (safe_desiredMembers safe)
  exact ⟨packed.reads, packed.fits⟩

end Updatedc.HealthProxy

namespace Updatedc.Sample.HealthProxy

open Contracts Updatedc.HealthProxy

/-- Words are separated by spaces. -/
scoped instance spaces : RuntimeApi :=
  ⟨(· == ' '), rfl, fun c space => by rw [beq_iff_eq.mp space]; rfl⟩

/-- Two members observed, then the shutdown drain. -/
def observedPair : List Member := [⟨"a", "h", true⟩, ⟨"b", "h", false⟩]

theorem stateBatches_faithful_drain :
    (stateBatches "fleet" (desiredMembers (managedAfter [observedPair]) []).1).flatMap readBatch =
      [some ("fleet/a", false), some ("fleet/b", false)] := by
  have backendSafe : isBalancerSafe "fleet" = true := by decide
  have safe : ∀ seen ∈ [observedPair] ++ [[]], ∀ member ∈ seen,
      isBalancerSafe member.node = true := by decide
  exact (stateBatches_faithful backendSafe safe rfl).1.trans (by decide)

end Updatedc.Sample.HealthProxy
