import StateProvenance.Coordinator
import StateProvenance.SaveFile

/-! The `register` command of the command line: load the file, publish the record that the arguments describe,
save the file. A file that is missing, that cannot be read or that is rejected gives a fresh store. -/

namespace StateProvenance.Cli

open Std Library.OrderedMap ProvenanceStore

abbrev Args := OrdMap ByteString ByteString

def parseArgs (m : Args) : List ByteString → Args
  | [] => m
  | (0x2D :: 0x2D :: k) :: v :: rest =>
    if v ≠ ByteString.ofText "--json" ∧ v.head? ≠ some 0x2D then parseArgs (m.insert k v) rest
    else parseArgs (m.insert k (ByteString.ofText "1")) (v :: rest)
  | [0x2D :: 0x2D :: k] => m.insert k (ByteString.ofText "1")
  | _ :: rest => parseArgs m rest

def arg (a : Args) (key : String) : Option ByteString := a[ByteString.ofText key]?

def commaPieces (p : ByteString) : List ByteString :=
  -- Nothing is read behind a comma at the end, or of an empty text.
  let pieces := p.splitOn 0x2C
  if pieces.getLast? = some [] then pieces.dropLast else pieces

def recordFromArgs (a : Args) (subject : ByteString) : RecordData where
  provenanceId := ⟨hx ((arg a "pid").getD subject) * 2⟩
  provenanceGeneration := ⟨((arg a "provgen").map hx).getD 1⟩
  subjectId := ⟨hx subject⟩
  subjectKind := .named (((arg a "kind").bind EnumClass.parse).getD .kvState)
  stateGeneration := ⟨((arg a "stategen").map hx).getD 1⟩
  producerId := ⟨((arg a "producer").map hx).getD 0xA⟩
  producerGeneration := ⟨1⟩
  executionId := ⟨((arg a "execution").map hx).getD 0xE1⟩
  attemptId := ⟨1⟩
  attemptGeneration := ⟨1⟩
  modelId := ⟨((arg a "model").map hx).getD 0⟩
  modelGeneration := if (arg a "model").isSome then ⟨1⟩ else {}
  architecture := (arg a "arch").getD []
  dtype := (arg a "dtype").getD []
  shape := (arg a "shape").getD []
  evidence := .named (((arg a "evidence").bind EnumClass.parse).getD .measured)
  validity := .named .valid
  inputStates := ((arg a "parents").map fun p => (commaPieces p).map fun piece => ⟨hx piece⟩).getD []

-- The error text, if the record is not published; an exception of the graph leaves the function.
def publishFromArgs (s : ProvenanceStore) (a : Args) : Except String (Option String) × ProvenanceStore :=
  match arg a "subject" with
  | none => (.ok (some "register requires --subject"), s)
  | some subject =>
    match s.publish (recordFromArgs a subject) with
    | (.error e, s) => (.error e.what, s)
    | (.ok out, s) => (.ok (if !out.ok then some out.error else none), s)

def freshStore : ProvenanceStore :=
  (({} : ProvenanceStore).applyAuthority (.rollProvenanceGeneration ⟨1⟩)).applyAuthority
    (.rollStateGeneration ⟨1⟩)

def loadStore (file : Option ByteString) : Except String Unit × ProvenanceStore :=
  match file.bind fun bytes => (loadFile bytes).snapshot with
  | some snap => ({} : ProvenanceStore).restore snap
  | none => (.ok (), freshStore)

structure Exit where
  code : ℕ
  out : String := ""
  err : String := ""

def register (path : String) (args : List ByteString) (o : CallOutcomes) (files : Files) :
    Except String Exit × Files :=
  match loadStore (files.content path) with
  | (.error e, _) => (.error e, files)
  | (.ok (), s) =>
    let a := parseArgs ∅ args
    match publishFromArgs s a with
    | (.error e, _) => (.error e, files)
    | (.ok (some err), _) => (.ok { code := 2, err := "register failed: " ++ err ++ "\n" }, files)
    | (.ok none, s) =>
      let saved := saveFile s.snapshot path o
      let files := files.after saved.2
      match saved.1 with
      | .error e => (.error e, files)
      | .ok (some e) => (.ok { code := 2, err := "save failed: " ++ e ++ "\n" }, files)
      | .ok none =>
        let id : StateId := ⟨hx ((arg a "subject").getD [])⟩
        let size := toString s.records.size
        (.ok { code := 0, out := "registered subject " ++ id.toText ++ " (size=" ++ size ++ ")\n" }, files)

end StateProvenance.Cli
