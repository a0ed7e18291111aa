import Updatedc.Contracts.Telemetry
import Updatedc.Window

/-!
# Third-party crates

Everything the control plane takes from other crates, as one parameter: the cryptographic
provider, `base64`, `semver`, `url`, `chrono`, and `serde_json` for each document. Results hold
for every behaviour of these crates; a concrete run fixes one.
-/

namespace Updatedc

open Contracts

class Crates where
  crypto : Crypto
  base64 : Base64
  semver : Semver
  urlParser : UrlParser
  jsonValue : Json JsonValue
  assignment : Json RepositoryAssignment
  agentDocument : Json AgentDocument
  fileSnapshot : Json FileSnapshot
  inputPublication : Json InputPublication
  outputPublication : Json OutputPublication
  nodeReport : Json NodeReport
  chrono : Chrono

attribute [reducible, instance] Crates.crypto Crates.base64 Crates.semver Crates.urlParser
  Crates.jsonValue Crates.assignment Crates.agentDocument Crates.fileSnapshot
  Crates.inputPublication Crates.outputPublication Crates.nodeReport Crates.chrono

/-! ## A stand-in to run the model with

Small total stand-ins for the crates: a digest is the number its bytes spell, every signature
verifies, base64 is the identity on characters, a report is read off four bytes, and a document is
spelled by its name or, with inputs, by their generation. -/

namespace Sample

def table {v : Type} (entries : List (String × v)) : BTreeMap String v := .ofList entries

theorem isDnsSubdomain_m : Identity.isDnsSubdomain "m" = true := by decide

/-- The version every sample release has. -/
def version : String := "1.0.0"

/-- The number a few bytes spell. -/
def number (bytes : Bytes) : Sha256 :=
  BitVec.ofNat 256 (bytes.foldl (fun value byte => value * 256 + byte.toNat) 0)

def chars (text : String) : Bytes := text.toList.map fun c => UInt8.ofNat c.toNat

/-- The low byte of a digest. -/
def byte (digest : DigestText) : UInt8 := UInt8.ofNat (digest.digest?.elim 0 BitVec.toNat)

/-- A report on the assignment with identity `assignment`, made at second `time`. Flag 0 is a
healthy report, 1 a failing one, 2 a healthy one that states a rejection, 3 a healthy one with
outputs. -/
def report (node : ResourceName) (assignment flag time : UInt8) : NodeReport :=
  { schema := NodeReport.currentSchema
    node
    deployment := "d"
    assignmentSha256 := .canonical (number [assignment])
    version
    archiveSha256 := .canonical 1
    definitionSha256 := .canonical 1
    healthy := flag != 1
    rejected := flag == 2
    reportedAtMs := time.toNat * 1000
    outputSha256 := if flag = 3 then some (.canonical 5) else none
    reconciliation := some { candidate := { version, archiveSha256 := 1 }, definitionSha256 := 1 } }

/-- Node names are one letter. -/
def decodeReport : Bytes → Except String NodeReport
  | [node, assignment, flag, time] =>
    match ResourceName.new? (String.ofList [Char.ofNat node.toNat]) with
    | some node => .ok (report node assignment flag time)
    | none => .error "name"
  | _ => .error "report"

/-- The signed envelope of such a report. -/
def envelope (node assignment flag time : UInt8) : Envelope :=
  { payload := String.ofList ([node, assignment, flag, time].map fun b => Char.ofNat b.toNat)
    payloadType := reportPayloadType
    signatures := [⟨"s"⟩] }

scoped instance crates : Crates where
  crypto := ⟨number, fun _ message => number message, fun _ _ _ => true⟩
  base64 := ⟨fun bytes => String.ofList (bytes.map fun b => Char.ofNat b.toNat),
    fun text => some (chars text)⟩
  semver := ⟨Nat, fun text => if text = version then some 1 else none, fun _ => version, compare,
    Nat.instTransOrd⟩
  urlParser := ⟨fun _ => .ok ⟨"https", "", none, some "h", "/", none, none, false, false⟩,
    fun _ => none⟩
  jsonValue := ⟨fun _ => [], fun _ => .ok (.object "")⟩
  assignment := ⟨fun document =>
      if document.runtime.inputs.isEmpty then chars document.deployment
      else [byte document.runtime.inputs.generation],
    fun _ => .error "assignment"⟩
  agentDocument := ⟨fun _ => [], fun _ => .error "document"⟩
  fileSnapshot := ⟨fun snapshot => snapshot.files.values.flatMap fun value => chars value.base64,
    fun _ => .error "snapshot"⟩
  inputPublication := ⟨fun _ => [], fun _ => .error "publication"⟩
  outputPublication := ⟨fun _ => [], fun _ => .error "publication"⟩
  nodeReport := ⟨fun _ => [], decodeReport⟩
  chrono := ⟨fun _ => none⟩

/-- A deployment with this one-letter name. -/
def deployment (name : String) (inputs : InputSelection) : RepositoryAssignment :=
  { schema := RepositoryAssignment.currentSchema
    deployment := name
    metadataUrl := "https://h/"
    targetsUrl := "https://h/"
    application :=
      { target := version
        releases := table [(version, { package := ⟨"p", .canonical 1⟩, installable := true })] }
    releaseRoot := .object ""
    runtime :=
      { product := "p"
        channel := "c"
        installRoot := "/"
        inputs
        repository := ⟨1, 1, 1⟩
        storage := ⟨1, 1, 1⟩
        timeouts := ⟨1, 1, 1, 1, 1, 1⟩ } }

end Sample

end Updatedc
