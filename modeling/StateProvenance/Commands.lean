import StateProvenance.Cli
import StateProvenance.Durability
import StateProvenance.Reports

/-! The commands of the command line. Each is a process of its own: it loads a file, works on the store, and prints, or
saves a store and prints what came of that. Each call of a load can fail where there is a file. -/

namespace StateProvenance.Spc

open Std Library.OrderedMap ProvenanceStore Explain Digest
open Cli (Args parseArgs arg freshStore recordFromArgs publishFromArgs)

structure Printed where
  code : ℕ
  out : ByteString := []
  err : ByteString := []
deriving DecidableEq

inductive Plan
  | print (p : Printed)
  | save (s : ProvenanceStore) (path : ByteString) (finish : Option String → Printed)

/-- What `load_file` says about a path, and `restore` about its snapshot. -/
abbrev Loaded := Except ByteString (Except String ProvenanceStore)

structure LoadOutcomes where
  opened : Bool
  sized : Bool
  read : Bool
deriving DecidableEq

def loadDone : LoadOutcomes := ⟨true, true, true⟩

def readBytes (files : Files) (o : LoadOutcomes) (path : ByteString) : Except ByteString ByteString :=
  match files.content (textOf path) with
  | none => .error (bytesOf "cannot open for read: " ++ path)
  | some bytes =>
    if !o.opened then .error (bytesOf "cannot open for read: " ++ path)
    else if !o.sized then .error (bytesOf "cannot stat: " ++ path)
    else if !bytes.isEmpty && !o.read then .error (bytesOf "read failed: " ++ path)
    else .ok bytes

def readFile (files : Files) (o : LoadOutcomes) (path : ByteString) : Loaded :=
  match readBytes files o path with
  | .error e => .error e
  | .ok bytes =>
    match (loadFile bytes).snapshot with
    | none => .error (bytesOf (loadFile bytes).error)
    | some snap =>
      match ({} : ProvenanceStore).restore snap with
      | (.error e, _) => .ok (.error e)
      | (.ok (), s) => .ok (.ok s)

def Loaded.store : Loaded → Except String ProvenanceStore
  | .error _ => .ok freshStore
  | .ok s => s

lemma readBytes_loadDone (files : Files) (path : ByteString) : readBytes files loadDone path =
    match files.content (textOf path) with
    | none => .error (bytesOf "cannot open for read: " ++ path)
    | some bytes => .ok bytes := by
  rw [readBytes]
  cases files.content (textOf path) with
  | none => rfl
  | some bytes => simp [loadDone]

lemma store_readFile (files : Files) (o : LoadOutcomes) (path : ByteString) : (readFile files o path).store =
    match Cli.loadStore (readBytes files o path).toOption with
    | (.error e, _) => .error e
    | (.ok (), s) => .ok s := by
  rw [readFile, Cli.loadStore]
  cases readBytes files o path with
  | error e => rfl
  | ok bytes =>
    rw [Except.toOption, Option.bind_some]
    dsimp only
    cases (loadFile bytes).snapshot with
    | none => rfl
    | some snap =>
      dsimp only
      rcases ({} : ProvenanceStore).restore snap with ⟨e | u, s⟩
      · rfl
      · rfl

/-- A line of `printf`, which ends its text at a null character. -/
def line (text : ByteString) : ByteString := text.takeWhile (· ≠ 0) ++ [0x0A]

def lineOf (text : String) : ByteString := line (bytesOf text)

def register (args : List ByteString) (path : ByteString) (s : ProvenanceStore) : Except String Plan :=
  let a := parseArgs ∅ args
  match publishFromArgs s a with
  | (.error e, _) => .error e
  | (.ok (some err), _) => .ok (.print { code := 2, err := lineOf ("register failed: " ++ err) })
  | (.ok none, s) =>
    let id : StateId := ⟨hx ((arg a "subject").getD [])⟩
    .ok (.save s path fun
      | some e => { code := 2, err := lineOf ("save failed: " ++ e) }
      | none =>
        { code := 0, out := lineOf ("registered subject " ++ id.toText ++ " (size=" ++ toString s.size ++ ")") })

def inspect (subject : ByteString) (json : Bool) (s : ProvenanceStore) : Printed :=
  match s.find ⟨hx subject⟩ with
  | none => { code := 2, err := lineOf "subject not found" }
  | some rec => { code := 0, out := line (if json then recordJson rec.d else recordText rec.d) }

def explain (subject : ByteString) (s : ProvenanceStore) : Printed :=
  { code := 0, out := line (chainText s ⟨hx subject⟩) }

def ancestry (subject : ByteString) (s : ProvenanceStore) : Printed :=
  { code := 0, out := (s.ancestors ⟨hx subject⟩).flatMap fun id => lineOf id.toText }

def descend (subject : ByteString) (s : ProvenanceStore) : Printed :=
  { code := 0, out := (s.descendants ⟨hx subject⟩).flatMap fun id => lineOf id.toText }

def deps (subject : ByteString) (s : ProvenanceStore) : Printed :=
  match s.find ⟨hx subject⟩ with
  | none => { code := 2, err := lineOf "not found" }
  | some rec =>
    { code := 0, out := rec.d.dependencies.flatMap fun dep => line (bytesOf (dep.id.toText ++ " ") ++ dep.kind) }

def reuseRequest (a : Args) : ReuseRequest where
  modelId := ⟨((arg a "model").map hx).getD 0⟩
  modelGeneration := if (arg a "model").isSome then ⟨1⟩ else {}
  architecture := (arg a "arch").getD []
  dtype := (arg a "dtype").getD []

def checkReuse (args : List ByteString) (subject : ByteString) (s : ProvenanceStore) : Printed :=
  let a := parseArgs ∅ args
  let d := s.checkReuse ⟨hx subject⟩ (reuseRequest a)
  { code := 0, out := if (arg a "json").isSome then line (decisionJson d) else lineOf (reuseText d) }

def invalidate (args : List ByteString) (path subject : ByteString) (s : ProvenanceStore) : Except String Plan :=
  let a := parseArgs ∅ args
  let reason := ((arg a "reason").bind EnumClass.parse).getD .operatorInvalidation
  match s.invalidate ⟨⟨hx subject⟩, .named reason, ByteString.ofText "cli"⟩ with
  | (out, s) =>
    if !out.ok then .ok (.print { code := 2, err := lineOf ("invalidate failed: " ++ out.error) })
    -- What came of saving is not looked at.
    else .ok (.save s path fun _ =>
      { code := 0, out := lineOf ("invalidated " ++ toString out.result.affected.length ++ " subject(s)") })

def save (done : String) (out : ByteString) (s : ProvenanceStore) : Plan :=
  .save s out fun
    | some e => { code := 2, err := lineOf e }
    | none => { code := 0, out := lineOf (done ++ " digest=" ++ storeDigest s.snapshot) }

def replay (s : ProvenanceStore) : Except String Plan :=
  match encodeSnapshot s.snapshot with
  | .error e => .error e
  | .ok bytes =>
    match decodeSnapshot bytes with
    | .error _ => .ok (.print { code := 2, err := lineOf "replay failed" })
    | .ok snap =>
      match ({} : ProvenanceStore).restore snap with
      | (.error e, _) => .error e
      | (.ok (), r) =>
        .ok (.print
          { code := 0, out := lineOf ("replay digest=" ++ storeDigest r.snapshot ++ " size=" ++ toString r.size) })

def atoi (s : ByteString) : ℤ :=
  let value := fun (s : ByteString) =>
    (s.takeWhile fun b => 0x30 ≤ b ∧ b ≤ 0x39).foldl (fun v b => 10 * v + (b.toNat - 0x30 : ℤ)) 0
  let strtol := fun (s : ByteString) =>
    match s.dropWhile isSpace with
    | 0x2D :: rest => max (-2 ^ 63) (-value rest)
    | 0x2B :: rest => min (value rest) (2 ^ 63 - 1)
    | rest => min (value rest) (2 ^ 63 - 1)
  -- The long that is read is cut to an int.
  (strtol s).bmod (2 ^ 32)

def benchmarkRecord (i : ℕ) : RecordData where
  provenanceId := ⟨0x100000000 + i.toUInt64⟩
  provenanceGeneration := ⟨1⟩
  subjectId := ⟨0x200000000 + i.toUInt64⟩
  subjectKind := .named .kvState
  stateGeneration := ⟨1⟩
  producerId := ⟨0xA⟩
  producerGeneration := ⟨1⟩
  executionId := ⟨0xE1⟩
  modelId := ⟨7⟩
  modelGeneration := ⟨1⟩
  evidence := .named .measured
  validity := .named .valid
  inputStates := if i > 0 then [⟨0x200000000 + i.toUInt64 - 1⟩] else []

def publishAll : List RecordData → ProvenanceStore → Except String ProvenanceStore
  | [], s => .ok s
  | d :: ds, s =>
    match s.publish d with
    | (.error e, _) => .error e.what
    | (.ok _, s) => publishAll ds s

abbrev Timing := String × String

def benchmark (timing : Timing) (args : List ByteString) (s : ProvenanceStore) : Except String Plan :=
  let n := ((arg (parseArgs ∅ args) "n").map atoi).getD 1000
  match publishAll ((List.range n.toNat).map benchmarkRecord) s with
  | .error e => .error e
  | .ok s =>
    .ok (.print { code := 0, out := lineOf ("published " ++ toString n ++ " records in " ++ timing.1 ++ " ms (" ++
      timing.2 ++ " us/record); size=" ++ toString s.size) })

inductive Command
  | usage
  | onStore (file : ByteString) (body : ProvenanceStore → Except String Plan)
  | recover (file out : ByteString)

def withFile (args : List ByteString) (f : ByteString → List ByteString → Command) : Command :=
  match args with
  | file :: rest => f file rest
  | [] => .usage

def withSubject (args : List ByteString) (f : ByteString → ByteString → List ByteString → Command) : Command :=
  match args with
  | file :: subject :: rest => f file subject rest
  | _ => .usage

def printing (file : ByteString) (body : ProvenanceStore → Printed) : Command :=
  .onStore file fun s => .ok (.print (body s))

def parseCommand (timing : Timing) : List ByteString → Command
  | [] => .usage
  | cmd :: args =>
    if cmd = ByteString.ofText "register" then
      withFile args fun file rest => .onStore file (register rest file)
    else if cmd = ByteString.ofText "inspect" then
      withSubject args fun file subject rest =>
        printing file (inspect subject ((subject :: rest).any (· = ByteString.ofText "--json")))
    else if cmd = ByteString.ofText "explain" then
      withSubject args fun file subject _ => printing file (explain subject)
    else if cmd = ByteString.ofText "ancestry" then
      withSubject args fun file subject _ => printing file (ancestry subject)
    else if cmd = ByteString.ofText "descend" then
      withSubject args fun file subject _ => printing file (descend subject)
    else if cmd = ByteString.ofText "deps" then
      withSubject args fun file subject _ => printing file (deps subject)
    else if cmd = ByteString.ofText "check-reuse" then
      withSubject args fun file subject rest => printing file (checkReuse (subject :: rest) subject)
    else if cmd = ByteString.ofText "invalidate" then
      withSubject args fun file subject rest => .onStore file (invalidate rest file subject)
    else if cmd = ByteString.ofText "save" then
      withSubject args fun file out _ => .onStore file fun s => .ok (save "saved" out s)
    else if cmd = ByteString.ofText "recover" then
      withSubject args fun file out _ => .recover file out
    else if cmd = ByteString.ofText "replay" then
      withFile args fun file _ => .onStore file replay
    else if cmd = ByteString.ofText "benchmark" then
      withFile args fun file rest => .onStore file (benchmark timing rest)
    else .usage

def usageText : List String :=
  ["spc: State Provenance CLI",
    "  register <file> --subject <hex> [--kind KVState] [--model <hex>] [--parents <hex,..>] [--producer <hex>] " ++
      "[--execution <hex>] [--evidence MEASURED] [--arch sm_120] --provgen <hex> --stategen <hex>",
    "  inspect   <file> <subject_hex> [--json]",
    "  explain   <file> <subject_hex>",
    "  ancestry  <file> <subject_hex>",
    "  descend   <file> <subject_hex>",
    "  deps      <file> <subject_hex>",
    "  check-reuse <file> <subject_hex> [--model <hex>] [--arch <s>] [--dtype <s>]",
    "  invalidate <file> <subject_hex> [--reason ModelRevisionChange]",
    "  save      <file> <out>",
    "  recover   <in> <out>",
    "  replay    <file>",
    "  benchmark <file> [--n <count>]"]

def Command.plan (read : ByteString → Loaded) : Command → Except String Plan
  | .usage => .ok (.print { code := 1, out := usageText.flatMap lineOf })
  | .onStore file body =>
    match (read file).store with
    | .error e => .error e
    | .ok s => body s
  | .recover file out =>
    match read file with
    | .error e => .ok (.print { code := 2, err := line (bytesOf "recover failed: " ++ e) })
    | .ok (.error e) => .error e
    | .ok (.ok s) => .ok (save "recovered" out s)

structure Call where
  argv : List ByteString
  load : LoadOutcomes
  outcomes : CallOutcomes
  timing : Timing

def Call.plan (c : Call) (read : ByteString → Loaded) : Except String Plan := (parseCommand c.timing c.argv).plan read

def run (files : Files) (c : Call) : Except String Printed × Files :=
  match c.plan (readFile files c.load) with
  | .error e => (.error e, files)
  | .ok (.print p) => (.ok p, files)
  | .ok (.save s path finish) =>
    let saved := saveFile s.snapshot (textOf path) c.outcomes
    (saved.1.map finish, files.after saved.2)

lemma run_register (files : Files) (path : ByteString) (args : List ByteString) (o : CallOutcomes) (timing : Timing) :
    let c : Call := ⟨ByteString.ofText "register" :: path :: args, loadDone, o, timing⟩
    let r := Cli.register (textOf path) args o files
    (run files c).1.map Printed.code = r.1.map Cli.Exit.code ∧ (run files c).2 = r.2 := by
  intro c r
  have hcommand : parseCommand timing c.argv = .onStore path (register args path) := by
    rw [parseCommand, if_pos rfl]
    rfl
  have hload : (readBytes files loadDone path).toOption = files.content (textOf path) := by
    rw [readBytes_loadDone]
    cases files.content (textOf path) with
    | none => rfl
    | some bytes => rfl
  have hplan : c.plan (readFile files loadDone) =
      match (readFile files loadDone path).store with
      | .error e => .error e
      | .ok s => register args path s := by
    rw [Call.plan, hcommand]
    rfl
  simp only [run, r, Cli.register]
  rw [hplan, store_readFile, hload]
  generalize Cli.loadStore (files.content (textOf path)) = l
  rcases l with ⟨e | u, s⟩
  · exact ⟨rfl, rfl⟩
  · dsimp only
    rw [register]
    dsimp only
    generalize publishFromArgs s (parseArgs ∅ args) = published
    rcases published with ⟨e | ⟨_ | err⟩, t⟩
    · exact ⟨rfl, rfl⟩
    · dsimp only
      generalize saveFile t.snapshot (textOf path) o = calls
      rcases calls with ⟨e | ⟨_ | e⟩, effects⟩
      · exact ⟨rfl, rfl⟩
      · exact ⟨rfl, rfl⟩
      · exact ⟨rfl, rfl⟩
    · exact ⟨rfl, rfl⟩

end StateProvenance.Spc
