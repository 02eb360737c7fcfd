import Ficc.Execution.Spec
import Ficc.Foundations.JsonRecords
import Mathlib.Data.Finset.Sort
import Mathlib.Data.String.Basic

/-!
# The encoding of plans

A plan is written as JSON with sorted keys and no blanks, and the digest of these bytes names it.
Two records leave a field out: an input that is delivered locally has no `delivery`, and a job
without an endpoint has no `endpoint`. A reader takes the missing field for that value, so the text
still determines the plan.

Each record has `dump`, the document that is written, `decode`, which reads the fields of a record
and refuses fields that it does not have, and `valid`, the bounds, patterns and validators. The
patterns of texts are checked on the characters.

## Main results

* `Plan.parse_encoded`: a valid plan is read back from its encoding.
* `Plan.codec`: the same with the digests, and different valid plans have different encodings.
-/

namespace Ficc.Execution

open Utf8 JsonText

/-- A JSON document. -/
abbrev Doc := Document Text Literal

/-- `json.dumps` with sorted keys and without blanks, as bytes. The text is ASCII. -/
def encoded (value : Doc) : List UInt8 := (write ⟨true, 0⟩ (sorted value)).flatMap sequence

/-- `json.loads` -/
def loads (bytes : List UInt8) : Option Doc := (Utf8.decode bytes).bind read

/-! ### Checks of fields -/

def isCount (n : ℕ) : Bool := n ≤ 2 ^ 63 - 1

def isPositive (n : ℕ) : Bool := 1 ≤ n && n ≤ 2 ^ 63 - 1

def isRevision (n : ℕ) : Bool := 1 ≤ n && n ≤ maximumRevision

/-- A text of one character and at most so many others. -/
def isPattern (first others : Char → Bool) (most : ℕ) (text : String) : Bool :=
  match text.toList with
  | [] => false
  | c :: rest => first c && rest.all others && rest.length ≤ most

def isLower (c : Char) : Bool := 'a' ≤ c && c ≤ 'z'

def isUpper (c : Char) : Bool := 'A' ≤ c && c ≤ 'Z'

def isNumeral (c : Char) : Bool := '0' ≤ c && c ≤ '9'

def isAlnum (c : Char) : Bool := isLower c || isUpper c || isNumeral c

def isName : String → Bool :=
  isPattern isLower (fun c => isLower c || isNumeral c || c ∈ ['_', '.', '-']) 79

def isDevice : String → Bool :=
  isPattern isAlnum (fun c => isAlnum c || c ∈ ['_', '.', ':', '/', '-']) 127

def isVariable : String → Bool :=
  isPattern (fun c => isLower c || isUpper c || c = '_') (fun c => isAlnum c || c = '_') 127

def isObjectName : String → Bool :=
  isPattern isAlnum (fun c => isAlnum c || c ∈ ['_', '.', '-']) 127

def isSocket : String → Bool :=
  isPattern isLower (fun c => isLower c || isNumeral c || c ∈ ['_', '.', '-']) 63

def isArgument (text : String) : Bool := text.length ≤ 16384

/-! ### Identities and digests -/

def dumpIdentity (identity : Identity) : Doc := .text (hex 32 identity.toNat)

def identity : Doc → Option Identity
  | .text text => (readHex 32 text).map (BitVec.ofNat 128)
  | _ => none

/-- What stands before the digits of a digest. -/
def digestMark : Text := points "sha256:"

def dumpDigest (digest : Digest) : Doc := .text (digestMark ++ hex 64 digest.toNat)

def digest : Doc → Option Digest
  | .text text =>
    if digestMark.isPrefixOf text then
      (readHex 64 (text.drop digestMark.length)).map (BitVec.ofNat 256)
    else none
  | _ => none

/-! ### Limits -/

def Limits.dump (limits : Limits) : Doc := object [
  ("cpu_millis", ofNatural limits.cpuMillis), ("memory_bytes", ofNatural limits.memoryBytes),
  ("swap_bytes", ofNatural limits.swapBytes), ("processes", ofNatural limits.processes),
  ("storage_bytes", ofNatural limits.storageBytes),
  ("storage_inodes", ofNatural limits.storageInodes),
  ("gpu_devices", ofStrings limits.gpuDevices)]

def Limits.decode (document : Doc) : Option Limits := do
  let found ← record ["cpu_millis", "memory_bytes", "swap_bytes", "processes", "storage_bytes",
    "storage_inodes", "gpu_devices"] document
  let cpuMillis ← (field found "cpu_millis").bind natural
  let memoryBytes ← (field found "memory_bytes").bind natural
  let swapBytes ← (field found "swap_bytes").bind natural
  let processes ← (field found "processes").bind natural
  let storageBytes ← (field found "storage_bytes").bind natural
  let storageInodes ← (field found "storage_inodes").bind natural
  let gpuDevices ← (field found "gpu_devices").bind strings
  if devices : gpuDevices.Nodup then
    some { cpuMillis, memoryBytes, swapBytes, processes, storageBytes, storageInodes, gpuDevices,
           devices }
  else none

def Limits.valid (limits : Limits) : Bool :=
  isPositive limits.cpuMillis && isPositive limits.memoryBytes && isCount limits.swapBytes &&
    isPositive limits.processes && isPositive limits.storageBytes &&
    isPositive limits.storageInodes && limits.gpuDevices.length ≤ 64 &&
    limits.gpuDevices.all isDevice

/-! ### Runtimes -/

def Runtime.dump (runtime : Runtime) : Doc := object [
  ("provider", ofString runtime.provider), ("package_digest", dumpDigest runtime.packageDigest),
  ("image_digest", dumpDigest runtime.imageDigest), ("isolation", ofString runtime.isolation),
  ("network", ofString runtime.network)]

def Runtime.decode (document : Doc) : Option Runtime := do
  let found ← record ["provider", "package_digest", "image_digest", "isolation", "network"] document
  let provider ← (field found "provider").bind string
  let packageDigest ← (field found "package_digest").bind digest
  let imageDigest ← (field found "image_digest").bind digest
  let isolation ← (field found "isolation").bind string
  let network ← (field found "network").bind string
  some { provider, packageDigest, imageDigest, isolation, network }

def Runtime.valid (runtime : Runtime) : Bool :=
  isName runtime.provider && isName runtime.isolation && isName runtime.network

/-! ### Payloads -/

/-- The variables of an environment and their values. -/
def entries (environment : Finmap fun _ : String => String) : List (String × String) :=
  environment.keys.sort.map fun key => (key, (environment.lookup key).getD "")

def Payload.dump (payload : Payload) : Doc := object [
  ("argv", ofStrings payload.argv),
  ("environment", object ((entries payload.environment).map fun entry =>
    (entry.1, ofString entry.2)))]

/-- A variable with its value. -/
def readEntry (member : Text × Doc) : Option (Sigma fun _ : String => String) := do
  let key ← string (.text member.1 : Doc)
  let value ← string member.2
  some ⟨key, value⟩

/-- An object whose values are strings. -/
def dictionary : Doc → Option (Finmap fun _ : String => String)
  | .object members => (members.mapM readEntry).map List.toFinmap
  | _ => none

def Payload.decode (document : Doc) : Option Payload := do
  let found ← record ["argv", "environment"] document
  let argv ← (field found "argv").bind strings
  let environment ← (field found "environment").bind dictionary
  some { argv, environment }

def Payload.valid (payload : Payload) : Bool :=
  1 ≤ payload.argv.length && payload.argv.length ≤ 256 && payload.argv.all isArgument &&
    payload.environment.keys.card ≤ 64 &&
    (entries payload.environment).all (fun entry => isVariable entry.1 && isArgument entry.2) &&
    -- The validator `bounded`.
    ((payload.argv.head?.bind fun path => path.toList.head?) = some '/') &&
    payload.argv.all (fun item => '\x00' ∉ item.toList) &&
    (entries payload.environment).all (fun entry => '\x00' ∉ entry.2.toList) &&
    (encoded payload.dump).length ≤ 65536

/-! ### Inputs and outputs -/

def Delivery.text : Delivery → String
  | .local_ => "local"
  | .stream => "stream"

def ObjectReference.dump (input : ObjectReference) : Doc := object <|
  [("id", dumpIdentity input.id), ("digest", dumpDigest input.digest),
    ("bytes", ofNatural input.bytes), ("name", ofString input.name)] ++
  -- The serializer takes the default out.
  if input.delivery = .local_ then [] else [("delivery", ofString input.delivery.text)]

/-- One of the two literals, the first when the field is missing. -/
def delivery (value : Option Doc) : Option Delivery :=
  match value with
  | none => some .local_
  | some value => do
    let text ← string value
    if text = "local" then some .local_ else if text = "stream" then some .stream else none

def ObjectReference.decode (document : Doc) : Option ObjectReference := do
  let found ← record ["id", "digest", "bytes", "name", "delivery"] document
  let id ← (field found "id").bind identity
  let digest ← (field found "digest").bind Execution.digest
  let bytes ← (field found "bytes").bind natural
  let name ← (field found "name").bind string
  let delivery ← Execution.delivery (field found "delivery")
  some { id, digest, bytes, name, delivery }

def ObjectReference.valid (input : ObjectReference) : Bool :=
  isCount input.bytes && isObjectName input.name

def Output.dump (output : Output) : Doc :=
  object [("name", ofString output.name), ("path", ofString output.path)]

def Output.decode (document : Doc) : Option Output := do
  let found ← record ["name", "path"] document
  let name ← (field found "name").bind string
  let path ← (field found "path").bind string
  some { name, path }

/-- The validator `below_work_directory`: a relative path in its normal form, without parent
directories and control characters. -/
def belowWorkDirectory (path : String) : Bool :=
  let parts := (path.toList.splitOn '/').filter fun part => part ≠ [] ∧ part ≠ ['.']
  path.toList.head? ≠ some '/' && List.intercalate ['/'] parts = path.toList && parts ≠ [] &&
    ['.', '.'] ∉ parts && path.toList.all fun c => 32 ≤ c.toNat && c.toNat ≠ 127

def Output.valid (output : Output) : Bool :=
  isName output.name && 1 ≤ output.path.length && output.path.length ≤ 4096 &&
    belowWorkDirectory output.path

/-! ### Endpoints -/

def Endpoint.dump (endpoint : Endpoint) : Doc := object [
  ("socket", ofString endpoint.socket), ("paths", ofStrings endpoint.paths),
  ("concurrency", ofNatural endpoint.concurrency)]

def Endpoint.decode (document : Doc) : Option Endpoint := do
  let found ← record ["socket", "paths", "concurrency"] document
  let socket ← (field found "socket").bind string
  let paths ← (field found "paths").bind strings
  let concurrency ← match field found "concurrency" with
    | none => some 3
    | some value => natural value
  some { socket, paths, concurrency }

/-- The routes that an endpoint may have. -/
def routes : List String := ["/health", "/v1/models", "/v1/chat/completions", "/v1/embeddings",
  "/api/version", "/api/blobs", "/api/create", "/api/show", "/api/ps", "/api/chat", "/api/embed"]

def Endpoint.valid (endpoint : Endpoint) : Bool :=
  isSocket endpoint.socket && 1 ≤ endpoint.paths.length && endpoint.paths.length ≤ 16 &&
    endpoint.paths.all (· ∈ routes) && endpoint.paths.Nodup && 1 ≤ endpoint.concurrency &&
    endpoint.concurrency ≤ 34

/-! ### Jobs -/

def Job.dump (job : Job) : Doc := object <|
  [("name", ofString job.name), ("runtime", job.runtime.dump), ("payload", job.payload.dump),
    ("limits", job.limits.dump), ("inputs", .list (job.inputs.map ObjectReference.dump)),
    ("outputs", .list (job.outputs.map Output.dump)), ("sensitive", .bool job.sensitive)] ++
  -- The serializer takes a missing endpoint out.
  match job.endpoint with
  | none => []
  | some endpoint => [("endpoint", endpoint.dump)]

/-- A list of records. -/
def records {α : Type} (decode : Doc → Option α) : Doc → Option (List α)
  | .list items => items.mapM decode
  | _ => none

/-- An endpoint that can be missing or null. -/
def optionalEndpoint : Option Doc → Option (Option Endpoint)
  | none => some none
  | some .null => some none
  | some value => (Endpoint.decode value).map some

def Job.decode (document : Doc) : Option Job := do
  let found ← record ["name", "runtime", "payload", "limits", "inputs", "outputs", "sensitive",
    "endpoint"] document
  let name ← (field found "name").bind string
  let runtime ← (field found "runtime").bind Runtime.decode
  let payload ← (field found "payload").bind Payload.decode
  let limits ← (field found "limits").bind Limits.decode
  let inputs ← (field found "inputs").bind (records ObjectReference.decode)
  let outputs ← (field found "outputs").bind (records Output.decode)
  let sensitive ← (field found "sensitive").bind boolean
  let endpoint ← optionalEndpoint (field found "endpoint")
  some { name, runtime, payload, limits, inputs, outputs, sensitive, endpoint }

def Job.valid (job : Job) : Bool :=
  1 ≤ job.name.length && job.name.length ≤ 80 && job.runtime.valid && job.payload.valid &&
    job.limits.valid && job.inputs.length ≤ 64 && job.inputs.all ObjectReference.valid &&
    job.outputs.length ≤ 64 && job.outputs.all Output.valid &&
    job.endpoint.all Endpoint.valid &&
    -- The validator `unique_inputs`.
    (job.inputs.map ObjectReference.id).Nodup && (job.inputs.map ObjectReference.name).Nodup &&
    (job.outputs.map Output.name).Nodup && (job.outputs.map Output.path).Nodup

/-! ### Plans -/

def Plan.dump (plan : Plan) : Doc := object [
  ("version", ofNatural plan.version), ("deployment_id", dumpIdentity plan.deploymentId),
  ("node_id", dumpIdentity plan.nodeId), ("project_id", dumpIdentity plan.projectId),
  ("subject_id", dumpIdentity plan.subjectId), ("job_id", dumpIdentity plan.jobId),
  ("attempt_id", dumpIdentity plan.attemptId), ("generation", ofNatural plan.generation),
  ("offer_revision", ofNatural plan.offerRevision),
  ("policy_revision", ofNatural plan.policyRevision), ("job", plan.job.dump)]

def Plan.decode (document : Doc) : Option Plan := do
  let found ← record ["version", "deployment_id", "node_id", "project_id", "subject_id", "job_id",
    "attempt_id", "generation", "offer_revision", "policy_revision", "job"] document
  let version ← (field found "version").bind natural
  let deploymentId ← (field found "deployment_id").bind identity
  let nodeId ← (field found "node_id").bind identity
  let projectId ← (field found "project_id").bind identity
  let subjectId ← (field found "subject_id").bind identity
  let jobId ← (field found "job_id").bind identity
  let attemptId ← (field found "attempt_id").bind identity
  let generation ← (field found "generation").bind natural
  let offerRevision ← (field found "offer_revision").bind natural
  let policyRevision ← (field found "policy_revision").bind natural
  let job ← (field found "job").bind Job.decode
  some { version, deploymentId, nodeId, projectId, subjectId, jobId, attemptId, generation,
         offerRevision, policyRevision, job }

def Plan.valid (plan : Plan) : Bool :=
  plan.version = 1 && isRevision plan.generation && isRevision plan.offerRevision &&
    isCount plan.policyRevision && plan.job.valid &&
    -- The validator `bounded`.
    (encoded plan.dump).length ≤ 131072

/-- Reads a plan and validates it. -/
def Plan.parse (document : Doc) : Option Plan :=
  (Plan.decode document).filter Plan.valid

/-- The digests of documents, with SHA-256 as a parameter. -/
def encodedDigest (sha256 : List UInt8 → Digest) (value : Doc) : Digest := sha256 (encoded value)

/-! ### Records are read back -/

@[simp]
theorem sorted_dumpIdentity (value : Identity) : sorted (dumpIdentity value) = dumpIdentity value :=
  sorted_text _

@[simp]
theorem sorted_dumpDigest (value : Digest) : sorted (dumpDigest value) = dumpDigest value :=
  sorted_text _

/-- An identity is read back. -/
@[simp]
theorem identity_dump (value : Identity) : identity (dumpIdentity value) = some value := by
  have hlt : value.toNat < 16 ^ 32 := value.isLt
  rw [dumpIdentity, identity, readHex_hex hlt, Option.map_some, BitVec.ofNat_toNat,
    BitVec.setWidth_eq]

/-- So is a digest. -/
@[simp]
theorem digest_dump (value : Digest) : digest (dumpDigest value) = some value := by
  have hlt : value.toNat < 16 ^ 64 := value.isLt
  have hmark : digestMark.isPrefixOf (digestMark ++ hex 64 value.toNat) = true :=
    List.isPrefixOf_iff_prefix.mpr (List.prefix_append _ _)
  rw [dumpDigest, digest, if_pos hmark, List.drop_left, readHex_hex hlt, Option.map_some,
    BitVec.ofNat_toNat, BitVec.setWidth_eq]

/-- The limits are read back, and so is every record below. -/
theorem Limits.decode_dump (limits : Limits) : decode (sorted limits.dump) = some limits := by
  refine record_bind (by simp) (by simp) fun found hfield => ?_
  simp only [hfield]
  simp [List.lookup_cons, limits.devices]

theorem Runtime.decode_dump (runtime : Runtime) : decode (sorted runtime.dump) = some runtime := by
  refine record_bind (by simp) (by simp) fun found hfield => ?_
  simp only [hfield]
  simp [List.lookup_cons]

theorem ObjectReference.decode_dump (input : ObjectReference) :
    decode (sorted input.dump) = some input := by
  refine record_bind ?_ ?_ fun found hfield => ?_
  · split <;> simp
  · split <;> simp
  · simp only [hfield]
    obtain ⟨id, digest, bytes, name, delivery⟩ := input
    cases delivery <;> simp [List.lookup_cons, Execution.delivery, Delivery.text]

theorem Output.decode_dump (output : Output) : decode (sorted output.dump) = some output := by
  refine record_bind (by simp) (by simp) fun found hfield => ?_
  simp only [hfield]
  simp [List.lookup_cons]

theorem Endpoint.decode_dump (endpoint : Endpoint) :
    decode (sorted endpoint.dump) = some endpoint := by
  refine record_bind (by simp) (by simp) fun found hfield => ?_
  simp only [hfield]
  simp [List.lookup_cons]

/-! ### Environments are read back -/

theorem dlookup_map_entries (pairs : List (String × String)) (key : String) :
    (pairs.map fun entry => (⟨entry.1, entry.2⟩ : Sigma fun _ : String => String)).dlookup key =
      pairs.lookup key := by
  induction pairs with
  | nil => rfl
  | cons entry pairs ih =>
    rw [List.map_cons, List.lookup_cons]
    by_cases hkey : key = entry.1
    · subst hkey
      simp
    · rw [List.dlookup_cons_ne _ _ hkey, ih, beq_eq_false_iff_ne.mpr hkey]

theorem keys_entries (environment : Finmap fun _ : String => String) :
    (entries environment).map Prod.fst = environment.keys.sort := by
  rw [entries, List.map_map]
  exact List.map_id _

/-- The names of an environment are distinct. -/
theorem nodup_entries (environment : Finmap fun _ : String => String) :
    ((entries environment).map Prod.fst).Nodup := by
  rw [keys_entries]
  exact Finset.sort_nodup _ _

/-- The entries have the values of the environment. -/
theorem lookup_entries (environment : Finmap fun _ : String => String) (key : String) :
    (entries environment).lookup key = environment.lookup key := by
  rw [entries, lookup_map_self]
  simp only [Finset.mem_sort, Finmap.mem_keys]
  cases hlookup : environment.lookup key with
  | none => rw [if_neg (Finmap.lookup_eq_none.mp hlookup)]
  | some value =>
    have hmem : key ∈ environment := Finmap.lookup_isSome.mp (by rw [hlookup]; rfl)
    rw [if_pos hmem]
    rfl

/-- An environment is read back. -/
theorem dictionary_dump (environment : Finmap fun _ : String => String) :
    dictionary (sorted (object ((entries environment).map fun entry =>
      (entry.1, ofString entry.2)))) = some environment := by
  have hread : ((entries environment).map fun entry =>
      (points entry.1, (ofString entry.2 : Doc))).mapM readEntry =
      some ((entries environment).map fun entry => ⟨entry.1, entry.2⟩) := by
    have hentry : ∀ entry : String × String,
        readEntry (points entry.1, ofString entry.2) = some ⟨entry.1, entry.2⟩ := by
      intro entry
      have hkey : string (.text (points entry.1) : Doc) = some entry.1 := string_ofString entry.1
      rw [readEntry, hkey, string_ofString]
      rfl
    induction entries environment with
    | nil => rfl
    | cons entry rest ih =>
      rw [List.map_cons, List.mapM_cons, hentry, ih]
      rfl
  rw [object, sorted_object, List.map_map, List.map_map, dictionary]
  simp only [Function.comp_def, sorted_ofString]
  obtain ⟨found, hfound, hperm⟩ := mapM_perm (sortMembers_perm _) hread
  rw [hfound, Option.map_some]
  refine congrArg some (Finmap.ext_lookup fun key => ?_)
  have hkeys : ((entries environment).map fun entry =>
      (⟨entry.1, entry.2⟩ : Sigma fun _ : String => String)).NodupKeys := by
    rw [List.NodupKeys, List.keys, List.map_map]
    exact nodup_entries environment
  have hfoundKeys : found.NodupKeys := (List.perm_nodupKeys hperm).mpr hkeys
  rw [Finmap.dlookup_list_toFinmap, List.perm_dlookup key hfoundKeys hperm, dlookup_map_entries,
    lookup_entries]

theorem Payload.decode_dump (payload : Payload) : decode (sorted payload.dump) = some payload := by
  refine record_bind (by simp) (by simp) fun found hfield => ?_
  simp only [hfield]
  simp [List.lookup_cons, dictionary_dump]

/-! ### Jobs and plans are read back -/

/-- A list is read back if its records are. -/
theorem records_map {α : Type} {dump : α → Doc} {decode : Doc → Option α}
    (h : ∀ a, decode (sorted (dump a)) = some a) (items : List α) :
    records decode (sorted (.list (items.map dump))) = some items := by
  rw [sorted_list, List.map_map, records]
  exact mapM_map_of_read h items

theorem optionalEndpoint_dump (endpoint : Endpoint) :
    optionalEndpoint (some (sorted endpoint.dump)) = some (some endpoint) := by
  have hdecode := Endpoint.decode_dump endpoint
  rw [Endpoint.dump, object, sorted_object] at hdecode ⊢
  rw [optionalEndpoint, hdecode]
  · rfl
  · exact fun h => by cases h

theorem Job.decode_dump (job : Job) : decode (sorted job.dump) = some job := by
  refine record_bind ?_ ?_ fun found hfield => ?_
  · cases job.endpoint <;> simp
  · cases job.endpoint <;> simp
  · simp only [hfield]
    obtain ⟨name, runtime, payload, limits, inputs, outputs, sensitive, endpoint⟩ := job
    cases endpoint with
    | none =>
      simp [-sorted_list, List.lookup_cons, Runtime.decode_dump, Payload.decode_dump,
        Limits.decode_dump, records_map ObjectReference.decode_dump,
        records_map Output.decode_dump, boolean, optionalEndpoint]
    | some endpoint =>
      simp [-sorted_list, List.lookup_cons, Runtime.decode_dump, Payload.decode_dump,
        Limits.decode_dump, records_map ObjectReference.decode_dump,
        records_map Output.decode_dump, boolean, optionalEndpoint_dump]

theorem Plan.decode_dump (plan : Plan) : decode (sorted plan.dump) = some plan := by
  refine record_bind (by simp) (by simp) fun found hfield => ?_
  simp only [hfield]
  simp [List.lookup_cons, Job.decode_dump]

/-! ### The text of a plan -/

/-- A document is read back from its encoding, with its keys sorted. -/
theorem loads_encoded {document : Doc} (h : document.every readable = true) :
    loads (encoded document) = some (sorted document) := by
  have hsorted := every_sorted nodup_keys h
  have hwhole : whole (write ⟨true, 0⟩ (sorted document)) = true :=
    whole_write rfl (settled_of_readable hsorted)
  rw [loads, encoded, Utf8.decode, decodeFrom_flatMap hwhole]
  exact read_write hsorted

/-- Hexadecimal digits are no surrogates. -/
theorem whole_hex (digits n : ℕ) : whole (hex digits n) = true := by
  have hdigit : ∀ d : Fin 16, Utf16.isSurrogate (hexDigit d) = false := by decide
  induction digits generalizing n with
  | zero => rfl
  | succ digits ih => rw [hex, whole_append, ih, whole_cons (hdigit _)]; rfl

theorem readable_ofNatural (n : ℕ) : (ofNatural n).every readable = true := by
  rw [ofNatural, Document.every]
  exact legible_int n

theorem readable_text {text : Text} (h : whole text = true) :
    (Document.text text : Doc).every readable = true := by
  rw [Document.every]
  exact h

theorem readable_ofString (text : String) : (ofString text : Doc).every readable = true :=
  readable_text (whole_points text)

theorem readable_ofStrings (values : List String) :
    (ofStrings values : Doc).every readable = true := by
  rw [ofStrings, Document.every_list]
  intro item hitem
  obtain ⟨value, -, rfl⟩ := List.mem_map.mp hitem
  exact readable_ofString value

theorem readable_dumpIdentity (value : Identity) :
    (dumpIdentity value).every readable = true :=
  readable_text (whole_hex 32 value.toNat)

theorem readable_dumpDigest (value : Digest) : (dumpDigest value).every readable = true := by
  refine readable_text ?_
  rw [whole_append, whole_hex, digestMark, whole_points]
  rfl

/-- A list is legible if its records are. -/
theorem readable_map {α : Type} {dump : α → Doc} (h : ∀ a, (dump a).every readable = true)
    (items : List α) : (Document.list (items.map dump)).every readable = true := by
  rw [Document.every_list]
  intro item hitem
  obtain ⟨value, -, rfl⟩ := List.mem_map.mp hitem
  exact h value

/-- What is written is legible, record by record. -/
theorem Limits.readable_dump (limits : Limits) : limits.dump.every readable = true := by
  rw [dump, every_object_iff]
  simp [readable_ofNatural, readable_ofStrings]

theorem Runtime.readable_dump (runtime : Runtime) : runtime.dump.every readable = true := by
  rw [dump, every_object_iff]
  simp [readable_ofString, readable_dumpDigest]

theorem Payload.readable_dump (payload : Payload) : payload.dump.every readable = true := by
  have hentries : (object ((entries payload.environment).map fun entry =>
      (entry.1, (ofString entry.2 : Doc)))).every readable = true := by
    rw [every_object_iff, List.map_map]
    refine ⟨nodup_entries payload.environment, fun pair hpair => ?_⟩
    obtain ⟨entry, -, rfl⟩ := List.mem_map.mp hpair
    exact readable_ofString entry.2
  rw [dump, every_object_iff]
  simp [readable_ofStrings, hentries]

theorem ObjectReference.readable_dump (input : ObjectReference) :
    input.dump.every readable = true := by
  rw [dump, every_object_iff]
  cases input.delivery <;>
    simp [readable_ofNatural, readable_ofString, readable_dumpIdentity, readable_dumpDigest]

theorem Output.readable_dump (output : Output) : output.dump.every readable = true := by
  rw [dump, every_object_iff]
  simp [readable_ofString]

theorem Endpoint.readable_dump (endpoint : Endpoint) : endpoint.dump.every readable = true := by
  rw [dump, every_object_iff]
  simp [readable_ofNatural, readable_ofString, readable_ofStrings]

theorem Job.readable_dump (job : Job) : job.dump.every readable = true := by
  have hbool : (Document.bool job.sensitive : Doc).every readable = true := rfl
  rw [dump, every_object_iff]
  cases job.endpoint <;>
    simp [readable_ofString, hbool, Runtime.readable_dump, Payload.readable_dump,
      Limits.readable_dump, Endpoint.readable_dump, readable_map ObjectReference.readable_dump,
      readable_map Output.readable_dump]

theorem Plan.readable_dump (plan : Plan) : plan.dump.every readable = true := by
  rw [dump, every_object_iff]
  simp [readable_ofNatural, readable_dumpIdentity, Job.readable_dump]

/-- A valid plan is read back from its encoding. -/
theorem Plan.parse_encoded {plan : Plan} (h : plan.valid = true) :
    (loads (encoded plan.dump)).bind Plan.parse = some plan := by
  rw [loads_encoded plan.readable_dump, Option.bind_some, Plan.parse, Plan.decode_dump,
    Option.filter_some, if_pos h]

/-- A valid plan is read back from its encoding, with the same digest, and different valid plans
have different encodings. -/
theorem Plan.codec {plan : Plan} (h : plan.valid = true) (sha256 : List UInt8 → Digest) :
    (∃ again, (loads (encoded plan.dump)).bind Plan.parse = some again ∧ again = plan ∧
      encodedDigest sha256 again.dump = encodedDigest sha256 plan.dump) ∧
    ∀ other : Plan, other.valid = true → other ≠ plan →
      encoded other.dump ≠ encoded plan.dump := by
  refine ⟨⟨plan, Plan.parse_encoded h, rfl, rfl⟩, fun other hother hne hsame => hne ?_⟩
  have hparse := Plan.parse_encoded hother
  rw [hsame, Plan.parse_encoded h] at hparse
  exact (Option.some.inj hparse).symm

namespace Example

/-- A plan that runs one container on one input. -/
def plan : Plan where
  version := 1
  deploymentId := 1
  nodeId := 2
  projectId := 3
  subjectId := 4
  jobId := 5
  attemptId := 6
  generation := 1
  offerRevision := 1
  policyRevision := 0
  job := {
    name := "train"
    runtime := ⟨"podman", 7, 8, "container", "none"⟩
    payload := ⟨["/bin/true"], ∅⟩
    limits := ⟨1000, 1, 0, 1, 1, 1, [], List.nodup_nil⟩
    inputs := [⟨9, 10, 11, "data", .local_⟩]
    outputs := []
    sensitive := false
    endpoint := none }

theorem codec_plan :
    plan.valid = true ∧ encoded { plan with generation := 2 }.dump ≠ encoded plan.dump :=
  ⟨by decide +kernel, (Plan.codec (by decide +kernel : plan.valid = true) fun _ => 0).2
    { plan with generation := 2 } (by decide +kernel) (by
      intro h
      have hgeneration : (2 : ℕ) = 1 := congrArg Plan.generation h
      omega)⟩

end Example

end Ficc.Execution
