import Movid.Preset.Config

/-!
# Writing and reading presets

`serializeCreation` writes a pipeline as a text of commands, `parse` runs such a text line by
line. Text properties follow at the end of the file, between boundaries.
-/

namespace Movid.Preset

variable {P : Platform}

/-- `PIPELINE_BOUNDARY`. -/
def boundary : Str := "==============================".toList

/-- The name of a section of the data part. -/
def tag (id name : Str) : Str := id ++ '_' :: name

/-! ### Writing -/

def createLine (type id : Str) : Str := "pipeline create ".toList ++ (type ++ ' ' :: id)

def setLine (id name value : Str) : Str := "pipeline set ".toList ++ (id ++ ' ' :: (name ++ ' ' :: value))

def setTextLine (id name : Str) : Str := "pipeline settext ".toList ++ (id ++ ' ' :: (name ++ ' ' :: tag id name))

def connectLine (id : Str) (i : Int) (id' : Str) (n : Int) : Str :=
  "pipeline connect ".toList ++ (id ++ ' ' :: (Text.showInt i ++ ' ' :: (id' ++ ' ' :: (Text.showInt n ++ [' ']))))

/-- One property, as `moModule::serializeCreation` writes it. -/
def settingLine (id : Str) (entry : Str × Property P) : Str :=
  if entry.2.isText then setTextLine id entry.1 else setLine id entry.1 entry.2.asString

/-- `moModule::serializeCreation` without the data. Each piece is followed by a line feed. -/
def Config.creation (c : Config P) : List Str :=
  createLine c.type.name c.id :: (c.props.entries.map (settingLine c.id) ++ [[]])

/-- The text properties, in the order of their names. -/
def Config.texts (c : Config P) : List (Str × Str) :=
  c.props.entries.filterMap fun entry => if entry.2.isText then some (entry.1, entry.2.asString) else none

/-- `moModule::serializeCreation` for the data. -/
def Config.data (c : Config P) : List Str :=
  if c.texts = [] then []
  else (c.texts.flatMap fun text => [boundary ++ ' ' :: tag c.id text.1, text.2]) ++ [boundary]

/-- One observer of output `i`. Streams that show an output to a browser are left out. -/
def connection (w : Net (Config P)) (id : Str) (s : StreamRef) (r : ModuleRef) : Option Str :=
  (w.modules r).bind fun observer =>
    if observer.isInternal then none
    else some (connectLine id s.idx observer.state.id (observer.getInputIndex s))

/-- `moModule::serializeConnections`. -/
def connections (w : Net (Config P)) (r : ModuleRef) : List Str :=
  match w.modules r with
  | none => []
  | some m => (List.range m.outputs.length).flatMap fun i =>
      (w.observers ⟨r, i⟩).filterMap (connection w m.state.id ⟨r, i⟩)

def configs (w : Net (Config P)) : List (Config P) := w.elements.filterMap fun r => (w.modules r).map (·.state)

def header (date : Str) : List Str :=
  ["# ================================================================".toList,
    "# PIPELINE AUTOGENERATED on ".toList ++ date,
    "# ================================================================".toList,
    []]

def connectionLines (w : Net (Config P)) : List Str := w.elements.flatMap (connections w)

/-- `moPipeline::serializeCreation`. -/
def serializeCreation (date : Str) (w : Net (Config P)) : Str :=
  Text.unlines (header date ++ (configs w).flatMap Config.creation ++ connectionLines w ++
    (configs w).flatMap Config.data)

/-! ### Reading -/

/-- `parse` returns false, or it reads a token that is not there. -/
inductive Failure where
  | error (msg : Str)
  | crash

/-- A `settext` command: the module, the property and the section. -/
structure LateSet where
  id : Str
  name : Str
  tag : Str

/-- The variables of `moPipeline::parse`. In data mode `data` has the name of the section and
what was read of it. -/
structure Reader (P : Platform) where
  net : Net (Config P)
  counters : Counters
  delay : Int32
  late : List LateSet
  data : Option (Str × Str)

def getModuleById (w : Net (Config P)) (id : Str) : Option ModuleRef :=
  w.elements.find? fun r => (w.modules r).map (·.state.id) = some id

def haveError (w : Net (Config P)) (r : ModuleRef) : Bool := ((w.modules r).map (·.isError)).getD false

def getLastError (w : Net (Config P)) (r : ModuleRef) : Str :=
  ((w.modules r).map fun m => '<' :: m.state.id ++ "> ".toList ++ m.errorMsg).getD []

def moduleError (w : Net (Config P)) (r : ModuleRef) : Failure :=
  .error ("module error:".toList ++ getLastError w r)

def setOn (w : Net (Config P)) (r : ModuleRef) (name value : Str) : Net (Config P) :=
  w.updateModule r fun m => setProperty m name value

def markText (w : Net (Config P)) (r : ModuleRef) (name : Str) : Net (Config P) :=
  w.updateModule r fun m => { m with state := m.state.setText name }

/-- The property that one `settext` command names. The message for a missing module has the third
token of the boundary line, which may not have one. -/
def setLate (third : Option Str) (text : Str) (w : Net (Config P)) (late : LateSet) : Except Failure (Net (Config P)) :=
  match getModuleById w late.id with
  | none => .error (third.elim .crash fun id => .error ("unable to find module with id ".toList ++ id))
  | some r =>
    let w := markText (setOn w r late.name text) r late.name
    if haveError w r then .error (moduleError w r) else .ok w

/-- The end of a section: every `settext` command with its name is taken off the list. The loop
of the source starts again after each of them, which changes nothing in the order. -/
def closeSection (third : Option Str) (tag text : Str) (w : Net (Config P)) :
    List LateSet → Except Failure (Net (Config P) × List LateSet)
  | [] => .ok (w, [])
  | late :: rest =>
    if late.tag = tag then do
      let w ← setLate third text w late
      closeSection third tag text w rest
    else do
      let (w, rest) ← closeSection third tag text w rest
      .ok (w, late :: rest)

namespace Reader

variable (s : Reader P)

def notEnough : Except Failure (Reader P) := .error (.error "not enough parameters".toList)

def noModule (id : Str) : Except Failure (Reader P) :=
  .error (.error ("unable to find module with id ".toList ++ id))

def config : List Str → Except Failure (Reader P)
  | key :: value :: _ => .ok (if key = "delay".toList then { s with delay := Text.atoi value } else s)
  | _ => notEnough

/-- A module for `create`: the id is set and can not be set again. -/
def newModule (t : ModuleType) (config : Config P) (id : Str) : Module (Config P) :=
  let m := setProperty (t.spec P config).build "id".toList id
  { m with state := m.state.setReadOnly "id".toList }

def create : List Str → Except Failure (Reader P)
  | [type, id] =>
    match getModuleById s.net id with
    | some _ => .error (.error "id already used".toList)
    | none =>
      match ModuleType.ofName type with
      | none => .error (.error ("unknown module ".toList ++ type))
      | some t =>
        let (config, counters) := t.construct P s.counters
        let w := s.net.allocate (newModule t config id)
        if haveError w s.net.next then .error (moduleError w s.net.next)
        else .ok { s with net := w.addElement s.net.next, counters }
  | _ => notEnough

/-- `module1->property(name).set(value)` for the module with the id. -/
def assign (id name value : Str) : Except Failure (Reader P) :=
  match getModuleById s.net id with
  | none => noModule id
  | some r =>
    let w := setOn s.net r name value
    if haveError w r then .error (moduleError w r) else .ok { s with net := w }

def set : List Str → Except Failure (Reader P)
  | [id, name] => s.assign id name []
  | [id, name, value] => s.assign id name value
  | _ => notEnough

def settext : List Str → Except Failure (Reader P)
  | [id, name, tag] => .ok { s with late := s.late ++ [{ id, name, tag }] }
  | _ => notEnough

def connect : List Str → Except Failure (Reader P)
  | [id, outidx, id', inidx] =>
    match getModuleById s.net id with
    | none => noModule id
    | some r =>
      match getModuleById s.net id' with
      | none => noModule id'
      | some r' =>
        let w := s.net.setInput r' (s.net.getOutput r (Text.atoi outidx).toInt) (Text.atoi inidx).toInt
        if haveError w r then .error (moduleError w r)
        else if haveError w r' then .error (moduleError w r')
        else .ok { s with net := w }
  | _ => notEnough

def pipeline : List Str → Except Failure (Reader P)
  | [] => notEnough
  | sub :: args =>
    if sub = "create".toList then s.create args
    else if sub = "set".toList then s.set args
    else if sub = "settext".toList then s.settext args
    else if sub = "connect".toList then s.connect args
    else .error (.error ("unknown pipeline subcommand: ".toList ++ sub))

def command (first : Str) (rest : List Str) : Except Failure (Reader P) :=
  if first = "config".toList then s.config rest
  else if first = "pipeline".toList then s.pipeline rest
  else .error (.error ("unknown command: ".toList ++ first))

/-- The open section, if there is one, is over. -/
def endData (third : Option Str) : Except Failure (Reader P) :=
  match s.data with
  | none => .ok s
  | some (tag, text) => do
    let (net, late) ← closeSection third tag text s.net s.late
    .ok { s with net, late, data := none }

/-- Only a line of two tokens starts another section. -/
def startData : List Str → Reader P
  | [tag] => { s with data := some (tag, []) }
  | _ => s

/-- A line whose first token is the boundary. -/
def boundaryLine (rest : List Str) : Except Failure (Reader P) := do
  let s ← s.endData rest[1]?
  .ok (s.startData rest)

/-- One turn of the loop in `moPipeline::parse`. In data mode a line of white space alone has
no first token to look at. -/
def parseLine (line : Str) : Except Failure (Reader P) :=
  if line = [] then .ok s
  else if line.head? = some '#' then .ok s
  else
    let tokens := Text.words line
    if tokens.length ≤ 1 ∧ s.data = none then .error (.error "invalid line command".toList)
    else match tokens with
      | [] => .error .crash
      | first :: rest =>
        if first = boundary then s.boundaryLine rest
        else match s.data with
          | some (tag, text) => .ok { s with data := some (tag, text ++ line ++ ['\n']) }
          | none => s.command first rest

def parseLines (lines : List Str) : Except Failure (Reader P) := lines.foldlM parseLine s

/-- `moPipeline::parse` on a file with the text. -/
def parse (text : Str) : Except Failure (Reader P) := s.parseLines (Text.lines text)

def start (net : Net (Config P)) (counters : Counters) (delay : Int32) : Reader P :=
  { net, counters, delay, late := [], data := none }

end Reader

end Movid.Preset
