import Movid.Lib.Stateful
import Movid.Preset.Creation

/-!
# Reading a preset, statement by statement

`parse` here reads its tokens by index, as the source does, and what it changed before it fails
stays changed. Apart from that state it does the same as `Reader.parse`.
-/

namespace Movid

/-- `moModule::getLastError` takes the error away. -/
def Net.clearError {α : Type} (w : Net α) (r : ModuleRef) : Net α := w.updateModule r fun m => { m with isError := false }

theorem Net.updateModule_allocate {α : Type} (w : Net α) (m : Module α) (f : Module α → Module α) :
    (w.allocate m).updateModule w.next f = w.allocate (f m) := by
  simp [Net.updateModule, Net.allocate]

namespace Preset

variable {P : Platform} {α : Type}

abbrev Loader (P : Platform) := EStateM Failure (Reader P)

namespace Loader

/-- `PIPELINE_PARSE_ERROR`. -/
def parseError (msg : Str) : Loader P α := throw (.error msg)

/-- `tokens[i]`. -/
def token (tokens : List Str) (i : Nat) : Loader P Str :=
  match tokens[i]? with
  | some t => pure t
  | none => throw .crash

def updateNet (f : Net (Config P) → Net (Config P)) : Loader P Unit := modify fun s => { s with net := f s.net }

/-- A module with an error ends the reading. The message takes the error. -/
def checkModule (r : ModuleRef) : Loader P Unit := do
  let s ← get
  if haveError s.net r then
    updateNet fun w => w.clearError r
    parseError ("module error:".toList ++ getLastError s.net r)

def notEnough : Loader P Unit := parseError "not enough parameters".toList

def noModule (id : Str) : Loader P Unit := parseError ("unable to find module with id ".toList ++ id)

def config (tokens : List Str) : Loader P Unit :=
  if tokens.length < 3 then notEnough
  else do
    if (← token tokens 1) = "delay".toList then
      let value ← token tokens 2
      modify fun s => { s with delay := Text.atoi value }

def create (tokens : List Str) : Loader P Unit :=
  if tokens.length ≠ 4 then notEnough
  else do
    let id ← token tokens 3
    match getModuleById (← get).net id with
    | some _ => parseError "id already used".toList
    | none =>
      let type ← token tokens 2
      match ModuleType.ofName type with
      | none => parseError ("unknown module ".toList ++ type)
      | some t =>
        let s ← get
        let r := s.net.next
        modify fun s => { s with
          net := s.net.allocate (t.spec P (t.construct P s.counters).1).build
          counters := (t.construct P s.counters).2 }
        checkModule r
        updateNet fun w => setOn w r "id".toList id
        updateNet fun w => w.updateModule r fun m => { m with state := m.state.setReadOnly "id".toList }
        checkModule r
        updateNet fun w => w.addElement r

def set (tokens : List Str) : Loader P Unit :=
  if tokens.length < 4 ∨ 5 < tokens.length then notEnough
  else do
    let id ← token tokens 2
    match getModuleById (← get).net id with
    | none => noModule id
    | some r =>
      let name ← token tokens 3
      let value ← if tokens.length = 5 then token tokens 4 else pure []
      updateNet fun w => setOn w r name value
      checkModule r

def settext (tokens : List Str) : Loader P Unit :=
  if tokens.length ≠ 5 then notEnough
  else do
    let id ← token tokens 2
    let name ← token tokens 3
    let tag ← token tokens 4
    modify fun s => { s with late := s.late ++ [{ id, name, tag }] }

def connect (tokens : List Str) : Loader P Unit :=
  if tokens.length ≠ 6 then notEnough
  else do
    let id ← token tokens 2
    match getModuleById (← get).net id with
    | none => noModule id
    | some r =>
      let id' ← token tokens 4
      match getModuleById (← get).net id' with
      | none => noModule id'
      | some r' =>
        let outidx ← token tokens 3
        let inidx ← token tokens 5
        updateNet fun w => w.setInput r' (w.getOutput r (Text.atoi outidx).toInt) (Text.atoi inidx).toInt
        checkModule r
        checkModule r'

def pipeline (tokens : List Str) : Loader P Unit :=
  if tokens.length < 2 then notEnough
  else do
    let sub ← token tokens 1
    if sub = "create".toList then create tokens
    else if sub = "set".toList then set tokens
    else if sub = "settext".toList then settext tokens
    else if sub = "connect".toList then connect tokens
    else parseError ("unknown pipeline subcommand: ".toList ++ sub)

def command (tokens : List Str) : Loader P Unit := do
  let first ← token tokens 0
  if first = "config".toList then config tokens
  else if first = "pipeline".toList then pipeline tokens
  else parseError ("unknown command: ".toList ++ first)

/-- What the loop over `data_lateset` does with an entry of the section. -/
def setLate (tokens : List Str) (text : Str) (late : LateSet) : Loader P Unit := do
  match getModuleById (← get).net late.id with
  | none => noModule (← token tokens 2)
  | some r =>
    updateNet fun w => setOn w r late.name text
    updateNet fun w => markText w r late.name
    checkModule r

/-- The `do … while ( have_set )` loop: the first entry of the section is used and erased, then
the search starts again. Every turn erases one entry, so their number is enough fuel. -/
def setLates (tokens : List Str) (tag text : Str) : Nat → Loader P Unit
  | 0 => pure ()
  | fuel + 1 => do
    match (← get).late.find? (·.tag = tag) with
    | none => pure ()
    | some late =>
      setLate tokens text late
      modify fun s => { s with late := s.late.eraseP (·.tag = tag) }
      setLates tokens tag text fuel

def endData (tokens : List Str) : Loader P Unit := do
  let s ← get
  match s.data with
  | none => pure ()
  | some (tag, text) =>
    modify fun s => { s with data := none }
    setLates tokens tag text s.late.length

def startData (tokens : List Str) : Loader P Unit :=
  if tokens.length = 2 then do
    let tag ← token tokens 1
    modify fun s => { s with data := some (tag, []) }
  else pure ()

def boundaryLine (tokens : List Str) : Loader P Unit := do
  endData tokens
  startData tokens

def parseLine (line : Str) : Loader P Unit :=
  if line = [] then pure ()
  else if line.head? = some '#' then pure ()
  else do
    let tokens := Text.words line
    let s ← get
    if tokens.length ≤ 1 ∧ s.data = none then parseError "invalid line command".toList
    else
      let first ← token tokens 0
      if first = boundary then boundaryLine tokens
      else match s.data with
        | some (tag, text) => modify fun s => { s with data := some (tag, text ++ line ++ ['\n']) }
        | none => command tokens

def parseLines : List Str → Loader P Unit
  | [] => pure ()
  | line :: lines => do
    parseLine line
    parseLines lines

/-- `moPipeline::parse` on a file with the text. -/
def parse (text : Str) : Loader P Unit := parseLines (Text.lines text)

open Stateful

/-! ### Tokens by index -/

variable {s : Reader P} {tokens args : List Str} {a b : Str}

@[simp] theorem token_zero : (token (a :: args) 0 : Loader P Str) = pure a := rfl

@[simp] theorem token_succ (i : Nat) : (token (a :: args) (i + 1) : Loader P Str) = token args i := rfl

@[simp] theorem outcome_parseError (msg : Str) : outcome (parseError msg : Loader P α) s = .error (.error msg) := rfl

@[simp] theorem outcome_notEnough : outcome (notEnough : Loader P Unit) s = Reader.notEnough := rfl

@[simp] theorem outcome_noModule (id : Str) : outcome (noModule id : Loader P Unit) s = Reader.noModule id := rfl

@[simp] theorem outcome_updateNet (f : Net (Config P) → Net (Config P)) :
    outcome (updateNet f) s = .ok { s with net := f s.net } := rfl

@[simp] theorem outcome_updateNet_bind (f : Net (Config P) → Net (Config P)) (g : Unit → Loader P α) :
    outcome (updateNet f >>= g) s = outcome (g ()) { s with net := f s.net } := rfl

@[simp] theorem outcome_checkModule (r : ModuleRef) :
    outcome (checkModule r) s = if haveError s.net r then .error (moduleError s.net r) else .ok s := by
  unfold checkModule
  rw [outcome_get_bind]
  split <;> rfl

@[simp] theorem outcome_checkModule_bind (r : ModuleRef) (f : Unit → Loader P α) : outcome (checkModule r >>= f) s =
    if haveError s.net r then .error (moduleError s.net r) else outcome (f ()) s := by
  rw [outcome_bind, outcome_checkModule]
  split <;> rfl

theorem outcome_config : outcome (config (a :: args)) s = s.config args := by
  unfold config Reader.config
  match args with
  | [] => rfl
  | [_] => rfl
  | key :: value :: rest =>
    rw [if_neg (by simp)]
    simp only [token_succ, token_zero, outcome_pure_bind, outcome_ite, outcome_modify, outcome_pure]
    split <;> rfl

theorem outcome_settext : outcome (settext (a :: b :: args)) s = s.settext args := by
  unfold settext
  match args with
  | [] => rfl
  | [_] => rfl
  | [_, _] => rfl
  | [_, _, _] => rfl
  | _ :: _ :: _ :: _ :: _ =>
    rw [if_pos (by simp)]
    rfl

theorem outcome_set : outcome (set (a :: b :: args)) s = s.set args := by
  unfold set
  match args with
  | [] => rfl
  | [_] => rfl
  | [id, name] =>
    rw [Reader.set, Reader.assign, if_neg (by simp)]
    cases found : getModuleById s.net id with
    | none => simp [found]
    | some r => simp [found]
  | [id, name, value] =>
    rw [Reader.set, Reader.assign, if_neg (by simp)]
    cases found : getModuleById s.net id with
    | none => simp [found]
    | some r => simp [found]
  | _ :: _ :: _ :: _ :: _ =>
    rw [if_pos (by simp)]
    rfl

theorem outcome_connect : outcome (connect (a :: b :: args)) s = s.connect args := by
  unfold connect
  match args with
  | [] => rfl
  | [_] => rfl
  | [_, _] => rfl
  | [_, _, _] => rfl
  | [id, outidx, id', inidx] =>
    rw [Reader.connect, if_neg (by simp)]
    cases found : getModuleById s.net id with
    | none => simp [found]
    | some r =>
      cases found' : getModuleById s.net id' with
      | none => simp [found, found']
      | some r' =>
        simp only [token_succ, token_zero, outcome_pure_bind, outcome_get_bind, found, found', outcome_updateNet_bind,
          outcome_checkModule_bind, outcome_checkModule]
  | _ :: _ :: _ :: _ :: _ :: _ =>
    rw [if_pos (by simp)]
    rfl

theorem haveError_allocate (w : Net (Config P)) (m : Module (Config P)) : haveError (w.allocate m) w.next = m.isError := by
  simp [haveError, Net.allocate]

theorem outcome_create : outcome (create (a :: b :: args)) s = s.create args := by
  unfold create
  match args with
  | [] => rfl
  | [_] => rfl
  | [type, id] =>
    rw [Reader.create, if_neg (by simp)]
    cases found : getModuleById s.net id with
    | some r => simp [found]
    | none =>
      cases known : ModuleType.ofName type with
      | none => simp [found, known]
      | some t =>
        simp only [token_succ, token_zero, outcome_pure_bind, outcome_get_bind, found, known, outcome_updateNet_bind,
          outcome_modify_bind, outcome_checkModule_bind, outcome_updateNet]
        simp only [setOn, Net.updateModule_allocate, haveError_allocate]
        rfl
  | _ :: _ :: _ :: _ =>
    rw [if_pos (by simp)]
    rfl

theorem outcome_pipeline : outcome (pipeline (a :: args)) s = s.pipeline args := by
  unfold pipeline
  cases args with
  | nil => rfl
  | cons sub args =>
    rw [if_neg (by simp), Reader.pipeline]
    simp only [token_succ, token_zero, outcome_pure_bind, outcome_ite, outcome_create, outcome_set, outcome_settext,
      outcome_connect, outcome_parseError]

theorem outcome_command : outcome (command (a :: args)) s = s.command a args := by
  unfold command Reader.command
  simp only [token_zero, outcome_pure_bind, outcome_ite, outcome_config, outcome_pipeline, outcome_parseError]

/-! ### The end of a section -/

theorem outcome_setLate (text : Str) (late : LateSet) : outcome (setLate (a :: args) text late) s =
    (Preset.setLate args[1]? text s.net late).map fun net => { s with net } := by
  unfold setLate Preset.setLate
  rw [outcome_get_bind]
  cases found : getModuleById s.net late.id with
  | none =>
    rw [token_succ]
    cases third : args[1]? with
    | none => rw [token, third]; rfl
    | some t => rw [token, third]; rfl
  | some r =>
    simp only [outcome_updateNet_bind, outcome_checkModule]
    split <;> rfl

theorem outcome_setLates (tag text : Str) {before after : List LateSet} (other : ∀ l ∈ before, l.tag ≠ tag)
    (here : s.late = before ++ after) {fuel : Nat} (enough : after.length ≤ fuel) :
    outcome (setLates (a :: args) tag text fuel) s =
      (closeSection args[1]? tag text s.net after).map fun rest => { s with net := rest.1, late := before ++ rest.2 } := by
  induction after generalizing s before fuel with
  | nil =>
    have nothing : s.late.find? (·.tag = tag) = none := by simpa [here] using other
    have same : s = { s with net := s.net, late := before ++ [] } := by rw [← here]
    cases fuel with
    | zero => exact congrArg Except.ok same
    | succ fuel =>
      unfold setLates
      rw [outcome_get_bind, nothing]
      exact congrArg Except.ok same
  | cons l after ih =>
    unfold closeSection
    split
    · rename_i matching
      have found : s.late.find? (·.tag = tag) = some l := by
        rw [here, List.find?_append, List.find?_eq_none.mpr (by simpa using other)]
        simp [matching]
      have erased : s.late.eraseP (·.tag = tag) = before ++ after := by
        rw [here, List.eraseP_append_right _ (by simpa using other)]
        simp [matching]
      cases fuel with
      | zero => exact absurd enough (Nat.not_succ_le_zero _)
      | succ fuel =>
        unfold setLates
        rw [outcome_get_bind, found]
        change outcome (setLate _ _ _ >>= _) s = _
        rw [outcome_bind, outcome_setLate]
        cases first : Preset.setLate args[1]? text s.net l with
        | error e => rfl
        | ok net => exact ih (s := { s with net, late := s.late.eraseP (·.tag = tag) }) other erased (Nat.le_of_succ_le_succ enough)
    · rename_i different
      have more : ∀ x ∈ before ++ [l], x.tag ≠ tag := by
        intro x member
        rcases List.mem_append.mp member with old | new
        · exact other x old
        · exact List.mem_singleton.mp new ▸ different
      rw [ih more (by rw [here, List.append_assoc, List.singleton_append]) (Nat.le_of_succ_le enough)]
      cases closeSection args[1]? tag text s.net after with
      | error e => rfl
      | ok rest => simp [Except.map, bind, Except.bind]

theorem outcome_endData : outcome (endData (a :: args)) s = s.endData args[1]? := by
  unfold endData Reader.endData
  rw [outcome_get_bind]
  cases opened : s.data with
  | none => rfl
  | some sec =>
    have none_ : ∀ l ∈ ([] : List LateSet), l.tag ≠ sec.1 := by simp
    apply (outcome_setLates (s := { s with data := none }) sec.1 sec.2 none_ rfl (Nat.le_refl _)).trans
    change _ = (closeSection args[1]? sec.1 sec.2 s.net s.late).bind _
    cases closeSection args[1]? sec.1 sec.2 s.net s.late <;> rfl

theorem outcome_startData : outcome (startData (a :: args)) s = .ok (s.startData args) := by
  unfold startData
  match args with
  | [] => rfl
  | [_] => rfl
  | _ :: _ :: _ =>
    rw [if_neg (by simp)]
    rfl

theorem outcome_boundaryLine : outcome (boundaryLine (a :: args)) s = s.boundaryLine args := by
  unfold boundaryLine Reader.boundaryLine
  rw [outcome_bind, outcome_endData]
  refine congrArg (Except.bind _) (funext fun s' => ?_)
  exact outcome_startData

/-- Both readers do the same with a line, up to the state that a failure leaves behind. -/
theorem outcome_parseLine (line : Str) : outcome (parseLine line) s = s.parseLine line := by
  unfold parseLine Reader.parseLine
  simp only [outcome_ite, outcome_pure, outcome_get_bind, outcome_parseError]
  cases Text.words line with
  | nil => rfl
  | cons first rest =>
    simp only [token_zero, outcome_pure_bind, outcome_ite, outcome_boundaryLine]
    cases s.data with
    | none => simp only [outcome_command]
    | some sec => rfl

theorem outcome_parseLines (lines : List Str) : outcome (parseLines lines) s = s.parseLines lines := by
  induction lines generalizing s with
  | nil => rfl
  | cons line lines ih =>
    rw [parseLines, outcome_bind, outcome_parseLine, Reader.parseLines_cons]
    exact congrArg (Except.bind _) (funext fun s' => ih)

theorem outcome_parse (text : Str) : outcome (parse text) s = s.parse text := outcome_parseLines _

end Loader

end Preset

end Movid
