import Updatedc.Lib.Run
import Updatedc.Contracts.Inventories
import Updatedc.Contracts.FleetReports

/-!
# The output cache (`updatec/src/dataflow.rs`)

The controller keeps what each node last published, and validates it by ETag: one listing per
reconcile, and only an object whose ETag is not the cached one is read. Listing and reading are
separate requests, and anyone who may write an object may write between them.

`System` is the bucket, the cache and the refresh in flight; an `Event` is a write or a delete by
anyone, or one step of the refresh. An entry is filed under **the listed ETag but holds the body
read later**. So an object that changes between the two, and then returns to its earlier bytes,
leaves an entry that no later refresh questions. Where no wanted object changes between its
listing and its read, an entry's ETag is that of the bytes it was decoded from (`Coherent`), and
every refresh answers with the current objects.
-/

namespace Updatedc.Outputs

open Contracts Run

/-! ## The namespace -/

/-- `object_key`, for a prefix that is already normal. -/
def objectKey (root relative : String) : String := root ++ "/" ++ relative

def outputRoot : String := "internal/dataflow/outputs"

/-- Where a node's output lives, below a repository's prefix. -/
def outputKey [Crypto] (repository node : String) : String :=
  objectKey repository (outputRoot ++ "/" ++ (nodeObjectDigest node).hex ++ ".json")

/-- Whether an object belongs to a root rather than merely sharing its byte prefix. -/
def objectInNamespace (root object : String) : Bool :=
  object == root || (root ++ "/").toList.isPrefixOf object.toList

/-! ## The cache -/

/-- An absent ETag is no cache validator. -/
def sameEtag : Option String → Option String → Bool
  | some cached, some current => cached == current
  | _, _ => false

/-- A publication with the digest of the exact bytes read. -/
structure ExactOutputPublication where
  sha256 : Sha256
  publication : OutputPublication
  deriving DecidableEq

/-- What a listing says of an object. -/
structure ObjectMeta where
  location : String
  eTag : Option String
  deriving DecidableEq

/-- A refresh in flight: what it wants, what it has still to visit of its listing, how many
objects it has met and which of the wanted ones. -/
structure Scan where
  wanted : BTreeMap String String
  listing : List ObjectMeta
  count : Nat := 0
  seen : Finset String := ∅

abbrev Entries := BTreeMap String (Option String × ExactOutputPublication)

structure System where
  objects : BTreeMap String Bytes
  entries : Entries := ∅
  scan : Option Scan := none

inductive Event where
  | write (location : String) (body : Bytes)
  | delete (location : String)
  /-- A refresh lists the namespace. -/
  | list (nodes : List String) (listing : List ObjectMeta)
  /-- It handles the next listed object: whether retiring it works, whether reading it does. -/
  | visit (retired readable : Bool)
  | finish
  /-- It runs out of time, or its listing fails. -/
  | abandon
  deriving DecidableEq

section

variable [Crates]

def ExactOutputPublication.decode (body : Bytes) (node : String) :
    Except String ExactOutputPublication :=
  if body.length > maxDataflowBodyBytes then
    .error (s!"dataflow output publication is {body.length} bytes, past the "
      ++ s!"{maxDataflowBodyBytes}-byte limit")
  else
    match (Json.fromSlice body : Except String OutputPublication) with
    | .error error => .error s!"decoding dataflow output publication: {error}"
    | .ok publication =>
      match publication.validate node with
      | .error error => .error error
      | .ok () => .ok { sha256 := Contracts.sha256 body, publication }

/-- What becomes of the entry of a wanted object that is read: `body` is the answer of the read,
if it had one. -/
def readEntry (entries : Entries) (node : String) (item : ObjectMeta) (body : Option Bytes) :
    Entries :=
  match body with
  | none => entries.erase item.location
  | some body =>
    if body.length > maxDataflowBodyBytes then entries.erase item.location
    else
      match ExactOutputPublication.decode body node with
      | .error _ => entries.erase item.location
      | .ok publication => entries.insert item.location (item.eTag, publication)

/-- The cached entry stands for the listed object. -/
def unchanged (entries : Entries) (item : ObjectMeta) : Bool :=
  entries[item.location]?.any fun entry => sameEtag entry.1 item.eTag

/-- One turn of the loop of `OutputCache::refresh`. -/
def visit (repository : String) (s : System) (scan : Scan) (item : ObjectMeta)
    (rest : List ObjectMeta) (retired readable : Bool) : System :=
  let scan := { scan with listing := rest, count := scan.count + 1 }
  if scan.count > maxBackendInventoryMembers then { s with scan := none }
  else if !objectInNamespace (objectKey repository outputRoot) item.location then
    { s with scan := some scan }
  else
    match scan.wanted[item.location]? with
    | none =>
      { objects := if retired then s.objects.erase item.location else s.objects
        entries := s.entries.erase item.location
        scan := some scan }
    | some node =>
      let scan := { scan with seen := insert item.location scan.seen }
      if unchanged s.entries item then { s with scan := some scan }
      else
        { s with
          entries := readEntry s.entries node item
            (if readable then s.objects[item.location]? else none)
          scan := some scan }

/-- The objects a refresh wants, by location. -/
def wantedOf (repository : String) (nodes : List String) : BTreeMap String String :=
  .ofList (nodes.map fun node => (outputKey repository node, node))

/-- What is left of the cache when a scan ends. -/
def retained (entries : Entries) (scan : Scan) : Entries :=
  entries.filter fun object _ => decide (object ∈ scan.seen)

def step (repository : String) (s : System) : Event → System
  | .write location body => { s with objects := s.objects.insert location body }
  | .delete location => { s with objects := s.objects.erase location }
  | .list nodes listing =>
    match s.scan with
    | none => { s with scan := some { wanted := wantedOf repository nodes, listing } }
    | some _ => s
  | .visit retired readable =>
    match s.scan with
    | some scan =>
      match scan.listing with
      | item :: rest => visit repository s scan item rest retired readable
      | [] => s
    | none => s
  | .finish =>
    match s.scan with
    | some scan =>
      if scan.listing.isEmpty then
        { s with entries := retained s.entries scan, scan := none }
      else s
    | none => s
  | .abandon => { s with scan := none }

/-- What a refresh that has visited its whole listing returns. -/
def answer (s : System) : Option (BTreeMap String ExactOutputPublication) :=
  match s.scan with
  | some scan =>
    if scan.listing.isEmpty then
      some (.ofList ((retained s.entries scan).values.map fun entry =>
        (entry.2.publication.node.asStr, entry.2)))
    else none
  | none => none

/-! ## What the bucket is asked for -/

/-- A listing of the bucket, in some order. -/
def Lists (etagOf : Bytes → Option String) (objects : BTreeMap String Bytes)
    (listing : List ObjectMeta) : Prop :=
  listing.Perm (objects.toList.map fun (location, body) => ⟨location, etagOf body⟩)

instance (etagOf : Bytes → Option String) (objects : BTreeMap String Bytes)
    (listing : List ObjectMeta) : Decidable (Lists etagOf objects listing) :=
  inferInstanceAs (Decidable (List.Perm _ _))

/-- Refreshes are for nodes of the fleet and list the bucket as it is, and **a wanted object that
is visited is gone or still has the ETag it was listed with**. -/
def Steady (etagOf : Bytes → Option String) (fleet : Set String) (s : System) : Event → Prop
  | .list nodes listing => (∀ node ∈ nodes, node ∈ fleet) ∧ Lists etagOf s.objects listing
  | .visit _ _ =>
    ∀ scan item rest node, s.scan = some scan → scan.listing = item :: rest →
      scan.wanted[item.location]? = some node →
      ∀ body, s.objects[item.location]? = some body → etagOf body = item.eTag
  | _ => True

variable {item : ObjectMeta} {s : System}

omit [Crates] in
theorem Lists.mem_iff {etagOf : Bytes → Option String} {objects : BTreeMap String Bytes}
    {listing : List ObjectMeta} (lists : Lists etagOf objects listing) :
    item ∈ listing ↔ ∃ body, objects[item.location]? = some body ∧ etagOf body = item.eTag := by
  rw [List.Perm.mem_iff lists, List.mem_map]
  constructor
  · rintro ⟨⟨location, body⟩, stored, rfl⟩
    exact ⟨body, Std.ExtTreeMap.mem_toList_iff_getElem?_eq_some.mp stored, rfl⟩
  · rintro ⟨body, stored, tag⟩
    refine ⟨(item.location, body), Std.ExtTreeMap.mem_toList_iff_getElem?_eq_some.mpr stored, ?_⟩
    show ObjectMeta.mk item.location (etagOf body) = item
    rw [tag]

/-! ## Keys -/

section Keys

variable {repository : String} {fleet : Set String}

theorem outputKey_inj (distinct : Set.InjOn nodeObjectDigest fleet) {a b : String}
    (hereA : a ∈ fleet) (hereB : b ∈ fleet)
    (same : outputKey repository a = outputKey repository b) :
    a = b := by
  unfold outputKey objectKey at same
  have hex : (nodeObjectDigest a).hex = (nodeObjectDigest b).hex := by
    simpa [String.ext_iff] using same
  exact distinct hereA hereB (Sha256.hex_injective hex)

theorem objectInNamespace_outputKey (node : String) :
    objectInNamespace (objectKey repository outputRoot) (outputKey repository node) = true := by
  unfold objectInNamespace outputKey objectKey
  rw [Bool.or_eq_true]
  right
  simp

theorem mem_of_wantedOf {nodes : List String} {location node : String}
    (wanted : (wantedOf repository nodes)[location]? = some node) :
    node ∈ nodes ∧ location = outputKey repository node := by
  obtain ⟨here, mem, same⟩ := List.mem_map.mp (BTreeMap.mem_of_getElem?_ofList wanted)
  cases same
  exact ⟨mem, rfl⟩

theorem wantedOf_outputKey (distinct : Set.InjOn nodeObjectDigest fleet) {nodes : List String}
    (known : ∀ node ∈ nodes, node ∈ fleet) {node : String} (mem : node ∈ nodes) :
    (wantedOf repository nodes)[outputKey repository node]? = some node := by
  obtain ⟨other, found⟩ := BTreeMap.exists_getElem?_ofList
    (List.mem_map.mpr ⟨node, mem, rfl⟩ :
      (outputKey repository node, node) ∈ nodes.map fun node => (outputKey repository node, node))
  have wanted : (wantedOf repository nodes)[outputKey repository node]? = some other := found
  obtain ⟨otherMem, same⟩ := mem_of_wantedOf wanted
  rw [wanted, outputKey_inj distinct (known node mem) (known other otherMem) same]

end Keys

theorem ExactOutputPublication.node_of_decode {body : Bytes} {node : String}
    {output : ExactOutputPublication} (decoded : decode body node = .ok output) :
    output.publication.node.asStr = node := by
  unfold decode at decoded
  split at decoded
  · cases decoded
  · split at decoded
    · cases decoded
    · split at decoded
      · cases decoded
      · next publication _ _ valid =>
        cases decoded
        by_contra other
        simp [OutputPublication.validate, other] at valid
        cases valid

/-! ## What an entry was decoded from -/

section Coherence

variable (repository : String) (etagOf : Bytes → Option String) (fleet : Set String)

/-- **An entry's ETag is that of bytes it is the decoding of.** -/
def Faithful (entries : Entries) : Prop :=
  ∀ location etag output, entries[location]? = some (etag, output) →
    ∃ node ∈ fleet, ∃ body, location = outputKey repository node ∧
      ExactOutputPublication.decode body node = .ok output ∧
      (etag.isSome → etagOf body = etag)

/-- The invariant of a steady run. -/
structure Coherent (s : System) : Prop where
  entries : Faithful repository etagOf fleet s.entries
  wanted : ∀ scan, s.scan = some scan → ∀ location node, scan.wanted[location]? = some node →
    node ∈ fleet ∧ location = outputKey repository node

variable {repository etagOf fleet}

theorem Faithful.erase {entries : Entries} (faithful : Faithful repository etagOf fleet entries)
    (location : String) : Faithful repository etagOf fleet (entries.erase location) := by
  intro other etag output found
  rw [Std.ExtTreeMap.getElem?_erase] at found
  split at found
  · cases found
  · exact faithful other etag output found

theorem Faithful.retained {entries : Entries} (faithful : Faithful repository etagOf fleet entries)
    (scan : Scan) : Faithful repository etagOf fleet (retained entries scan) := by
  intro location etag output found
  rw [Outputs.retained, BTreeMap.getElem?_filter_key] at found
  split at found
  · exact faithful location etag output found
  · cases found

theorem Faithful.readEntry {entries : Entries} (faithful : Faithful repository etagOf fleet entries)
    {node : String} {answer : Option Bytes} (known : node ∈ fleet)
    (at_key : item.location = outputKey repository node)
    (same : ∀ body, answer = some body → etagOf body = item.eTag) :
    Faithful repository etagOf fleet (readEntry entries node item answer) := by
  unfold Outputs.readEntry
  split
  · exact faithful.erase _
  · next body =>
    split
    · exact faithful.erase _
    · split
      · exact faithful.erase _
      · next output decoded =>
        intro location etag found entry
        rw [BTreeMap.getElem?_insert] at entry
        split at entry
        · next here =>
          cases entry
          exact ⟨node, known, body, here.symm.trans at_key, decoded, fun _ => same body rfl⟩
        · exact faithful location etag found entry

/-- One step of a steady run keeps the cache coherent. -/
theorem Coherent.step {event : Event} (coherent : Coherent repository etagOf fleet s)
    (steady : Steady etagOf fleet s event) :
    Coherent repository etagOf fleet (step repository s event) := by
  cases event with
  | write location body => exact ⟨coherent.entries, coherent.wanted⟩
  | delete location => exact ⟨coherent.entries, coherent.wanted⟩
  | list nodes listing =>
    simp only [Outputs.step]
    split
    · refine ⟨coherent.entries, ?_⟩
      rintro scan ⟨⟩ location node wanted
      obtain ⟨mem, at_key⟩ := mem_of_wantedOf wanted
      exact ⟨steady.1 node mem, at_key⟩
    · exact coherent
  | visit retired readable =>
    simp only [Outputs.step]
    split
    · next scan scanning =>
      split
      · next item rest listing =>
        have wanted := coherent.wanted scan scanning
        unfold visit
        dsimp only
        split
        · exact ⟨coherent.entries, nofun⟩
        · split
          · refine ⟨coherent.entries, ?_⟩
            rintro _ ⟨⟩
            exact wanted
          · split
            · refine ⟨coherent.entries.erase _, ?_⟩
              rintro _ ⟨⟩
              exact wanted
            · next node here =>
              split
              · refine ⟨coherent.entries, ?_⟩
                rintro _ ⟨⟩
                exact wanted
              · obtain ⟨known, at_key⟩ := wanted _ _ here
                refine ⟨coherent.entries.readEntry known at_key ?_, ?_⟩
                · intro body read
                  cases readable with
                  | true => exact steady scan item rest node scanning listing here body read
                  | false => cases read
                · rintro _ ⟨⟩
                  exact wanted
      · exact coherent
    · exact coherent
  | finish =>
    simp only [Outputs.step]
    split
    · next scan scanning =>
      split
      · exact ⟨coherent.entries.retained scan, nofun⟩
      · exact coherent
    · exact coherent
  | abandon => exact ⟨coherent.entries, nofun⟩

/-- **A steady run keeps the cache coherent.** -/
theorem Coherent.run {objects : BTreeMap String Bytes} {events : List Event}
    (steady : Along (Outputs.step repository) (Steady etagOf fleet) { objects } events) :
    Coherent repository etagOf fleet (events.foldl (Outputs.step repository) { objects }) := by
  refine Along.invariant (Coherent repository etagOf fleet)
    (fun s event steady coherent => coherent.step steady) steady ⟨?_, nofun⟩
  intro location etag output found
  simp at found

end Coherence

/-! ## A refresh that nothing interrupts -/

/-- What the objects say of a node. -/
def current (repository : String) (objects : BTreeMap String Bytes) (node : String) :
    Option ExactOutputPublication :=
  objects[outputKey repository node]?.bind fun body =>
    (ExactOutputPublication.decode body node).toOption

theorem readEntry_self (entries : Entries) (node : String) (item : ObjectMeta)
    (body : Option Bytes) :
    (readEntry entries node item body)[item.location]?.map Prod.snd =
      body.bind fun body => (ExactOutputPublication.decode body node).toOption := by
  unfold readEntry
  split
  · simp
  · next body =>
    split
    · next long => simp [ExactOutputPublication.decode, long, Except.toOption]
    · split
      · next failed => simp [failed, Except.toOption]
      · next decoded => simp [decoded, Except.toOption]

theorem readEntry_other {entries : Entries} {node : String} {body : Option Bytes}
    {location : String} (other : item.location ≠ location) :
    (readEntry entries node item body)[location]? = entries[location]? := by
  have erased : (entries.erase item.location)[location]? = entries[location]? := by
    rw [Std.ExtTreeMap.getElem?_erase, if_neg]
    exact fun same => other (Std.LawfulEqCmp.compare_eq_iff_eq.mp same)
  unfold readEntry
  split
  · exact erased
  · split
    · exact erased
    · split
      · exact erased
      · rw [BTreeMap.getElem?_insert, if_neg other]

omit [Crates] in
theorem entry_of_unchanged {entries : Entries} (same : unchanged entries item = true) :
    ∃ tag output, entries[item.location]? = some (some tag, output) ∧ item.eTag = some tag := by
  unfold unchanged at same
  cases found : entries[item.location]? with
  | none => rw [found] at same; cases same
  | some entry =>
    rw [found] at same
    obtain ⟨etag, output⟩ := entry
    replace same : sameEtag etag item.eTag = true := same
    cases etag with
    | none => cases same
    | some cached =>
      cases listed : item.eTag with
      | none => rw [listed] at same; cases same
      | some tag =>
        rw [listed] at same
        have equal : cached = tag := eq_of_beq same
        exact ⟨tag, output, by rw [equal], rfl⟩

section Sweep

variable {repository : String} {etagOf : Bytes → Option String} {fleet : Set String}
  {objects : BTreeMap String Bytes} {nodes : List String}

/-- A refresh has visited a part of its listing, and the wanted objects are as they were when it
started. -/
structure Swept (repository : String) (etagOf : Bytes → Option String) (fleet : Set String)
    (objects : BTreeMap String Bytes) (nodes : List String) (visited rest : List ObjectMeta)
    (s : System) (scan : Scan) : Prop where
  scanning : s.scan = some scan
  listing : scan.listing = rest
  wanted : scan.wanted = wantedOf repository nodes
  count : scan.count = visited.length
  faithful : Faithful repository etagOf fleet s.entries
  stored : ∀ node ∈ nodes,
    s.objects[outputKey repository node]? = objects[outputKey repository node]?
  seen : ∀ location ∈ scan.seen, ∃ node ∈ nodes, location = outputKey repository node
  met : ∀ item ∈ visited, ∀ node ∈ nodes, item.location = outputKey repository node →
    outputKey repository node ∈ scan.seen
  /-- A wanted object that was visited is cached as it is. -/
  settled : ∀ node ∈ nodes, outputKey repository node ∈ scan.seen →
    s.entries[outputKey repository node]?.map Prod.snd = current repository objects node

variable {scan : Scan}

/-- An object no requested node owns says nothing of the requested ones. -/
theorem Swept.pass {visited rest : List ObjectMeta} {s' : System}
    (swept : Swept repository etagOf fleet objects nodes visited (item :: rest) s scan)
    (foreign : ∀ node ∈ nodes, item.location ≠ outputKey repository node)
    (scanning : s'.scan = some { scan with listing := rest, count := scan.count + 1 })
    (faithful : Faithful repository etagOf fleet s'.entries)
    (objects_eq : ∀ location, item.location ≠ location →
      s'.objects[location]? = s.objects[location]?)
    (entries_eq : ∀ location, item.location ≠ location →
      s'.entries[location]? = s.entries[location]?) :
    Swept repository etagOf fleet objects nodes (visited ++ [item]) rest s'
      { scan with listing := rest, count := scan.count + 1 } where
  scanning := scanning
  listing := rfl
  wanted := swept.wanted
  count := by simp [swept.count]
  faithful := faithful
  stored node mem := (objects_eq _ (foreign node mem)).trans (swept.stored node mem)
  seen := swept.seen
  met := by
    intro other visited node mem here
    rcases List.mem_append.mp visited with before | now
    · exact swept.met other before node mem here
    · rw [List.mem_singleton.mp now] at here
      exact absurd here (foreign node mem)
  settled node mem here := by
    rw [entries_eq _ (foreign node mem)]
    exact swept.settled node mem here

/-- A requested node's object leaves its decoding in the cache. -/
theorem Swept.settle (distinct : Set.InjOn nodeObjectDigest fleet)
    (known : ∀ node ∈ nodes, node ∈ fleet) {visited rest : List ObjectMeta} {s' : System}
    {node : String}
    (swept : Swept repository etagOf fleet objects nodes visited (item :: rest) s scan)
    (mem : node ∈ nodes) (at_key : item.location = outputKey repository node)
    (scanning : s'.scan = some { scan with
      listing := rest, count := scan.count + 1, seen := insert item.location scan.seen })
    (faithful : Faithful repository etagOf fleet s'.entries) (objects_eq : s'.objects = s.objects)
    (entries_eq : ∀ location, item.location ≠ location →
      s'.entries[location]? = s.entries[location]?)
    (entry : s'.entries[item.location]?.map Prod.snd = current repository objects node) :
    Swept repository etagOf fleet objects nodes (visited ++ [item]) rest s'
      { scan with
        listing := rest, count := scan.count + 1, seen := insert item.location scan.seen } where
  scanning := scanning
  listing := rfl
  wanted := swept.wanted
  count := by simp [swept.count]
  faithful := faithful
  stored other otherMem := by
    rw [objects_eq]
    exact swept.stored other otherMem
  seen := by
    intro location here
    rcases Finset.mem_insert.mp here with rfl | before
    · exact ⟨node, mem, at_key⟩
    · exact swept.seen location before
  met := by
    intro other visited owner ownerMem here
    rcases List.mem_append.mp visited with before | now
    · exact Finset.mem_insert_of_mem (swept.met other before owner ownerMem here)
    · rw [List.mem_singleton.mp now] at here
      exact here ▸ Finset.mem_insert_self _ _
  settled := by
    intro owner ownerMem here
    by_cases same : item.location = outputKey repository owner
    · have owns : node = owner :=
        outputKey_inj distinct (known node mem) (known owner ownerMem) (at_key.symm.trans same)
      rw [← same, entry, owns]
    · rw [entries_eq _ same]
      refine swept.settled owner ownerMem ?_
      exact (Finset.mem_insert.mp here).resolve_left fun other => same other.symm

/-- One visit of an uninterrupted refresh. -/
theorem Swept.visit (distinct : Set.InjOn nodeObjectDigest fleet)
    (separates : ∀ a b tag, etagOf a = some tag → etagOf b = some tag → a = b)
    (known : ∀ node ∈ nodes, node ∈ fleet) {visited rest : List ObjectMeta}
    (swept : Swept repository etagOf fleet objects nodes visited (item :: rest) s scan)
    (room : visited.length < maxBackendInventoryMembers)
    (listed : ∃ body, objects[item.location]? = some body ∧ etagOf body = item.eTag)
    (retired : Bool) :
    ∃ scan', Swept repository etagOf fleet objects nodes (visited ++ [item]) rest
      (step repository s (.visit retired true)) scan' := by
  have stepped : step repository s (.visit retired true) =
      Outputs.visit repository s scan item rest retired true := by
    simp only [step, swept.scanning, swept.listing]
  rw [stepped]
  unfold Outputs.visit
  dsimp only
  have inBounds : ¬ scan.count + 1 > maxBackendInventoryMembers := by
    rw [swept.count]
    omega
  rw [if_neg inBounds]
  have erased : ∀ {v : Type} (map : BTreeMap String v) (location : String),
      item.location ≠ location → (map.erase item.location)[location]? = map[location]? := by
    intro v map location other
    rw [Std.ExtTreeMap.getElem?_erase, if_neg]
    exact fun same => other (Std.LawfulEqCmp.compare_eq_iff_eq.mp same)
  split
  · -- Outside the namespace, where no node's output is.
    next outside =>
    refine ⟨_, swept.pass ?_ rfl swept.faithful (fun _ _ => rfl) (fun _ _ => rfl)⟩
    intro node mem same
    rw [same, objectInNamespace_outputKey] at outside
    cases outside
  · split
    · next unwanted =>
      refine ⟨_, swept.pass ?_ rfl (swept.faithful.erase _) ?_ (erased s.entries)⟩
      · intro node mem same
        rw [swept.wanted, same, wantedOf_outputKey distinct known mem] at unwanted
        cases unwanted
      · intro location other
        dsimp only
        split
        · exact erased s.objects location other
        · rfl
    · next node wanted =>
      rw [swept.wanted] at wanted
      obtain ⟨mem, at_key⟩ := mem_of_wantedOf wanted
      obtain ⟨body, stored, tagged⟩ := listed
      have decoding : current repository objects node =
          (ExactOutputPublication.decode body node).toOption := by
        rw [current, ← at_key, stored]
        rfl
      split
      · -- The cached ETag is the listed one, so the cached bytes are the listed ones.
        next same =>
        refine ⟨_, swept.settle distinct known mem at_key rfl swept.faithful rfl
          (fun _ _ => rfl) ?_⟩
        obtain ⟨tag, output, found, listedTag⟩ := entry_of_unchanged same
        obtain ⟨owner, ownerKnown, cached, ownerKey, decoded, cachedTag⟩ :=
          swept.faithful _ _ _ found
        have owns : owner = node :=
          outputKey_inj distinct ownerKnown (known node mem) (ownerKey.symm.trans at_key)
        have bytes : cached = body :=
          separates cached body tag (cachedTag rfl) (tagged.trans listedTag)
        subst owns bytes
        rw [found, decoding, decoded]
        rfl
      · have reads : s.objects[item.location]? = some body := by
          rw [at_key, swept.stored node mem, ← at_key, stored]
        refine ⟨_, swept.settle distinct known mem at_key rfl ?_ rfl ?_ ?_⟩
        · refine swept.faithful.readEntry (known node mem) at_key ?_
          intro answer read
          rw [if_pos rfl, reads] at read
          cases read
          exact tagged
        · exact fun location other => readEntry_other other
        · rw [if_pos rfl, reads, readEntry_self, decoding]
          rfl

/-- The visits of an uninterrupted refresh, to the end of its listing. -/
theorem Swept.run (distinct : Set.InjOn nodeObjectDigest fleet)
    (separates : ∀ a b tag, etagOf a = some tag → etagOf b = some tag → a = b)
    (known : ∀ node ∈ nodes, node ∈ fleet) {rest visited : List ObjectMeta}
    (swept : Swept repository etagOf fleet objects nodes visited rest s scan)
    (room : visited.length + rest.length ≤ maxBackendInventoryMembers)
    (listed : ∀ item ∈ rest, ∃ body, objects[item.location]? = some body ∧ etagOf body = item.eTag)
    (retired : List Bool) (all : retired.length = rest.length) :
    ∃ scan', Swept repository etagOf fleet objects nodes (visited ++ rest) []
      ((retired.map (Event.visit · true)).foldl (step repository) s) scan' := by
  induction rest generalizing visited s scan retired with
  | nil =>
    cases List.length_eq_zero_iff.mp all
    exact ⟨scan, by simpa using swept⟩
  | cons item rest ih =>
    cases retired with
    | nil => cases all
    | cons first others =>
      rw [List.length_cons] at room
      obtain ⟨scan', next⟩ := swept.visit distinct separates known (by omega)
        (listed item List.mem_cons_self) first
      obtain ⟨last, done⟩ := ih next (by simp; omega)
        (fun other mem => listed other (List.mem_cons_of_mem _ mem)) others (by simpa using all)
      exact ⟨last, by simpa using done⟩

/-- What a refresh returns that has swept its whole listing. -/
theorem Swept.answer {listing : List ObjectMeta} (distinct : Set.InjOn nodeObjectDigest fleet)
    (known : ∀ node ∈ nodes, node ∈ fleet) (lists : Lists etagOf objects listing)
    (swept : Swept repository etagOf fleet objects nodes listing [] s scan) :
    ∃ outputs, Outputs.answer s = some outputs ∧
      ∀ node, outputs[node]? = if node ∈ nodes then current repository objects node else none := by
  let kept := retained s.entries scan
  refine ⟨.ofList (kept.values.map fun entry => (entry.2.publication.node.asStr, entry.2)), ?_, ?_⟩
  · simp only [Outputs.answer, swept.scanning, swept.listing]
    rfl
  -- An entry that is kept is a requested node's, and holds what the objects say of it.
  have entry_of : ∀ location entry, kept[location]? = some entry → ∃ node ∈ nodes,
      location = outputKey repository node ∧ current repository objects node = some entry.2 ∧
      entry.2.publication.node.asStr = node := by
    intro location entry found
    rw [show kept = retained s.entries scan from rfl, retained,
      BTreeMap.getElem?_filter_key] at found
    split at found
    · next here =>
      obtain ⟨node, mem, rfl⟩ := swept.seen location (of_decide_eq_true here)
      have told := swept.settled node mem (of_decide_eq_true here)
      rw [found] at told
      refine ⟨node, mem, rfl, told.symm, ?_⟩
      obtain ⟨body, -, decoded⟩ := Option.bind_eq_some_iff.mp told.symm
      cases outcome : ExactOutputPublication.decode body node with
      | error message => rw [outcome] at decoded; cases decoded
      | ok output =>
        rw [outcome] at decoded
        cases decoded
        exact ExactOutputPublication.node_of_decode outcome
    · cases found
  have names : ((kept.values.map fun entry =>
      (entry.2.publication.node.asStr, entry.2)).map Prod.fst).Nodup := by
    rw [BTreeMap.values, List.map_map, List.map_map]
    refine List.Nodup.map_on ?_ (BTreeMap.nodup_keys_toList kept).of_map
    rintro ⟨locationA, entryA⟩ memA ⟨locationB, entryB⟩ memB same
    have foundA := Std.ExtTreeMap.mem_toList_iff_getElem?_eq_some.mp memA
    have foundB := Std.ExtTreeMap.mem_toList_iff_getElem?_eq_some.mp memB
    obtain ⟨a, -, keyA, -, nameA⟩ := entry_of _ _ foundA
    obtain ⟨b, -, keyB, -, nameB⟩ := entry_of _ _ foundB
    have owner : a = b := by rw [← nameA, ← nameB]; exact same
    rw [keyA, owner, ← keyB] at foundA
    rw [keyA, keyB, owner, Option.some.inj (foundA.symm.trans foundB)]
  intro node
  apply Option.ext
  intro output
  constructor
  · intro found
    obtain ⟨entry, mem, pair⟩ := List.mem_map.mp (BTreeMap.mem_of_getElem?_ofList found)
    obtain ⟨location, held⟩ := BTreeMap.mem_values_iff.mp mem
    obtain ⟨owner, ownerMem, -, told, name⟩ := entry_of location entry held
    cases pair
    rw [name, if_pos ownerMem, told]
  · intro told
    split at told
    · next mem =>
      -- The node's object is there, so it was listed, met and cached.
      obtain ⟨body, stored, -⟩ := Option.bind_eq_some_iff.mp told
      have met := swept.met ⟨outputKey repository node, etagOf body⟩
        (lists.mem_iff.mpr ⟨body, stored, rfl⟩) node mem rfl
      have cached := swept.settled node mem met
      rw [told] at cached
      obtain ⟨entry, held, rfl⟩ := Option.map_eq_some_iff.mp cached
      have here : kept[outputKey repository node]? = some entry := by
        rw [show kept = retained s.entries scan from rfl, retained,
          BTreeMap.getElem?_filter_key, if_pos (decide_eq_true met), held]
      obtain ⟨owner, ownerMem, key, -, name⟩ := entry_of _ _ here
      have owns := outputKey_inj distinct (known node mem) (known owner ownerMem) key
      refine BTreeMap.getElem?_ofList_of_mem names (List.mem_map.mpr ⟨entry, ?_, ?_⟩)
      · exact BTreeMap.mem_values_iff.mpr ⟨_, here⟩
      · rw [name, owns]
    · cases told

end Sweep

/-- **The cache is coherent where no wanted object changes between its listing and its read.**
After every such run of writes, deletes and refreshes, a refresh that nothing interrupts and that
can read its objects answers with the decoding of the current objects of the requested nodes. -/
theorem refresh_coherent {repository : String} {etagOf : Bytes → Option String}
    {fleet : Set String} (distinct : Set.InjOn nodeObjectDigest fleet)
    (separates : ∀ a b tag, etagOf a = some tag → etagOf b = some tag → a = b)
    {objects : BTreeMap String Bytes} {events : List Event}
    (steady : Along (step repository) (Steady etagOf fleet) { objects } events)
    {s : System} (reached : events.foldl (step repository) { objects } = s) (idle : s.scan = none)
    {nodes : List String} (known : ∀ node ∈ nodes, node ∈ fleet) {listing : List ObjectMeta}
    (lists : Lists etagOf s.objects listing)
    (room : listing.length ≤ maxBackendInventoryMembers)
    {retired : List Bool} (all : retired.length = listing.length) :
    ∃ outputs,
      answer ((Event.list nodes listing :: retired.map (Event.visit · true)).foldl
        (step repository) s) = some outputs ∧
      ∀ node, outputs[node]? =
        if node ∈ nodes then current repository s.objects node else none := by
  have coherent : Coherent repository etagOf fleet s := reached ▸ Coherent.run steady
  have listed : step repository s (.list nodes listing) =
      { s with scan := some { wanted := wantedOf repository nodes, listing } } := by
    simp only [step, idle]
  have start : Swept repository etagOf fleet s.objects nodes [] listing
      (step repository s (.list nodes listing))
      { wanted := wantedOf repository nodes, listing } := by
    rw [listed]
    exact
      { scanning := rfl
        listing := rfl
        wanted := rfl
        count := rfl
        faithful := coherent.entries
        stored := fun _ _ => rfl
        seen := fun _ here => absurd here (Finset.notMem_empty _)
        met := fun _ here => absurd here List.not_mem_nil
        settled := fun _ _ here => absurd here (Finset.notMem_empty _) }
  obtain ⟨scan, swept⟩ := start.run distinct separates known (by simpa using room)
    (fun item mem => lists.mem_iff.mp mem) retired all
  exact swept.answer distinct known lists

end

end Updatedc.Outputs

namespace Updatedc.Outputs.Sample

open Contracts Run

/-- What node `m` publishes, in one byte. -/
def publication (body : Bytes) : OutputPublication :=
  { schema := OutputPublication.currentSchema
    node := ⟨"m", Updatedc.Sample.isDnsSubdomain_m⟩
    deployment := "d"
    assignmentSha256 := .canonical 1
    archiveSha256 := .canonical (Updatedc.Sample.number body)
    snapshot := {} }

scoped instance crates : Crates :=
  { Updatedc.Sample.crates with
    outputPublication := ⟨fun _ => [], fun body => .ok (publication body)⟩ }

/-- Two bodies have an ETag. -/
def etagOf (body : Bytes) : Option String :=
  if body = [1] then some "a" else if body = [2] then some "b" else none

theorem etagOf_separates (a b : Bytes) (tag : String) (first : etagOf a = some tag)
    (second : etagOf b = some tag) : a = b := by
  unfold etagOf at first second
  split at first <;> split at second <;> grind

def key : String := outputKey "r" "m"

/-- The node's first output as a refresh lists it. -/
def listing : List ObjectMeta := [⟨key, some "a"⟩]

/-- A refresh of the one node. -/
def refresh : List Event := [.list ["m"] listing, .visit false true]

/-- The first output is listed, the second is read, and the first comes back. -/
def returning : List Event :=
  [.write key [1], .list ["m"] listing, .write key [2], .visit false true, .finish,
    .write key [1]]

def returned : System := returning.foldl (step "r") { objects := ∅ }

set_option maxRecDepth 4096 in
/-- The next refresh finds the ETag it knows, and answers with an output that is not there. -/
theorem refresh_stale :
    Lists etagOf returned.objects listing ∧
      (answer (refresh.foldl (step "r") returned)).map (·["m"]?) =
        some (some ⟨2, publication [2]⟩) ∧
      current "r" returned.objects "m" = some ⟨1, publication [1]⟩ := by
  decide +kernel

/-- The same refresh where the object stays what it was between its listing and its read. -/
theorem refresh_coherent_twice :
    ∃ outputs, answer ((.write key [1] :: refresh ++ .finish :: refresh).foldl (step "r")
        { objects := ∅ }) = some outputs ∧
      outputs["m"]? = some ⟨1, publication [1]⟩ := by
  have steady : Along (step "r") (Steady etagOf {"m"}) { objects := ∅ }
      (.write key [1] :: refresh ++ [.finish]) := by
    refine ⟨trivial, ⟨fun node mem => by simpa using mem, by decide⟩, ?_, trivial, trivial⟩
    rintro scan item rest node ⟨⟩ ⟨⟩ _ body stored
    have read : body = [1] := by
      refine Option.some.inj (stored.symm.trans ?_)
      decide
    rw [read]
    rfl
  have known : ∀ node ∈ ["m"], node ∈ ({"m"} : Set String) := fun node mem => by simpa using mem
  have lists : Lists etagOf ((Event.write key [1] :: refresh ++ [Event.finish]).foldl (step "r")
      { objects := ∅ }).objects listing := by decide
  have all : [false].length = listing.length := rfl
  obtain ⟨outputs, answered, lookups⟩ := refresh_coherent (Set.injOn_singleton _ _)
    etagOf_separates steady rfl rfl known lists (by decide) all
  exact ⟨outputs, answered, (lookups "m").trans (by decide)⟩

end Updatedc.Outputs.Sample
