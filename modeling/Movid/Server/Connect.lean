import Movid.Graph.Wiring
import Movid.Server.App

/-!
# The connect request

`web_pipeline_connect` looks for the modules itself, hands the rest to `setInput` and replies. What
`setInput` refuses shows in the error of the module only.
-/

namespace Movid.Preset

variable {P : Platform}

/-- What `web_error` and `web_message` send. -/
inductive Reply where
  | error (text : Str)
  | message (text : Str)
  deriving DecidableEq

namespace App

variable (a : App P)

def webPipelineConnectReply (source target : Option Str) : Reply :=
  match source, target with
  | none, _ => .error "missing out".toList
  | some _, none => .error "missing in".toList
  | some out, some in_ =>
    match getModuleById a.net in_, getModuleById a.net out with
    | none, _ => .error "in object not found".toList
    | some _, none => if out = "NULL".toList then .message "ok".toList else .error "out object not found".toList
    | some _, some _ => .message "ok".toList

end App

/-- The stream that a connect request asks for. -/
def Requested (w : Net (Config P)) (out : Str) (outidx : Int) (stream : Option StreamRef) : Prop :=
  if out = "NULL".toList then stream = none
  else ∃ k s, getModuleById w out = some k ∧ w.getOutput k outidx = some s ∧ stream = some s

/-- The request can be met: both indices are there and the input takes the format. -/
def Accepts (w : Net (Config P)) (out in_ : Str) (outidx inidx : Int) : Prop :=
  ∃ r m port stream, getModuleById w in_ = some r ∧ w.modules r = some m ∧ m.inputPort inidx = some port ∧
    Requested w out outidx stream ∧ ∀ s, stream = some s → port.isStreamValid (w.getFormat s) = true

/-- In `v` the input holds what the request asked for in `w`. -/
def Connected (w v : Net (Config P)) (out in_ : Str) (outidx inidx : Int) : Prop :=
  ∃ r m port, getModuleById w in_ = some r ∧ v.modules r = some m ∧ m.inputPort inidx = some port ∧ Requested w out outidx port.stream

def WiredAlike {α : Type} (v w : Net α) : Prop :=
  (∀ r, (v.modules r).map (·.inputs) = (w.modules r).map (·.inputs)) ∧ v.observers = w.observers

/-- The reply is true, and a request that cannot be met changes no connection. -/
structure Honest (a : App P) (out in_ : Str) (outidx inidx : Option Str) : Prop where
  truthful : a.webPipelineConnectReply (some out) (some in_) = .message "ok".toList ↔
    Connected a.net (a.webPipelineConnect (some out) (some in_) outidx inidx).net out in_ (App.index outidx) (App.index inidx)
  refused : ¬ Accepts a.net out in_ (App.index outidx) (App.index inidx) →
    WiredAlike (a.webPipelineConnect (some out) (some in_) outidx inidx).net a.net

variable {a : App P} {out in_ : Str}

theorem getModuleById_live {w : Net (Config P)} {id : Str} {r : ModuleRef} (found : getModuleById w id = some r) :
    ∃ m, w.modules r = some m := by
  have is := List.find?_some found
  simp only [decide_eq_true_eq, Option.map_eq_some_iff] at is
  obtain ⟨m, live, _⟩ := is
  exact ⟨m, live⟩

/-- The stream that `setInput` gets: NULL as well when the output is not there. -/
theorem webPipelineConnect_net (outidx inidx : Option Str) {r : ModuleRef} (target : getModuleById a.net in_ = some r)
    (source : out = "NULL".toList ∨ (getModuleById a.net out).isSome) :
    ∃ stream, (a.webPipelineConnect (some out) (some in_) outidx inidx).net = a.net.setInput r stream (App.index inidx) ∧
      ∀ wanted, Requested a.net out (App.index outidx) wanted → wanted = stream := by
  unfold App.webPipelineConnect
  simp only [target]
  by_cases null : out = "NULL".toList
  · refine ⟨none, by rw [if_pos null], fun wanted requested => ?_⟩
    rw [Requested, if_pos null] at requested
    exact requested
  · obtain ⟨k, found⟩ := Option.isSome_iff_exists.mp (source.resolve_left null)
    refine ⟨a.net.getOutput k (App.index outidx), by simp only [if_neg null, found], fun wanted requested => ?_⟩
    rw [Requested, if_neg null] at requested
    obtain ⟨k', s, found', output, rfl⟩ := requested
    rw [found] at found'
    cases found'
    exact output.symm

theorem reply_ok (named : (getModuleById a.net in_).isSome) (source : out = "NULL".toList ∨ (getModuleById a.net out).isSome) :
    a.webPipelineConnectReply (some out) (some in_) = .message "ok".toList := by
  obtain ⟨r, target⟩ := Option.isSome_iff_exists.mp named
  unfold App.webPipelineConnectReply
  simp only [target]
  cases found : getModuleById a.net out with
  | some k => rfl
  | none =>
    rw [found] at source
    simp only []
    exact if_pos (source.resolve_right nofun)

theorem inputPort_congr {α : Type} {m m' : Module α} (same : m'.inputs = m.inputs) (n : Int) : m'.inputPort n = m.inputPort n := by
  rw [Module.inputPort, Module.inputPort, same]

theorem inputPort_setSlot {α : Type} {m : Module α} {n : Int} {port : InputPort} (found : m.inputPort n = some port) (stream : Option StreamRef) :
    (m.setSlot n.toNat stream).inputPort n = some { port with stream } := by
  unfold Module.inputPort at found ⊢
  split at found
  · rename_i positive
    rw [if_pos positive]
    simp [Module.setSlot, found]
  · cases found

/-- The request reaches what it asks for exactly when it can be met. -/
theorem connected_iff (outidx inidx : Option Str) (named : (getModuleById a.net in_).isSome)
    (source : out = "NULL".toList ∨ (getModuleById a.net out).isSome) :
    Connected a.net (a.webPipelineConnect (some out) (some in_) outidx inidx).net out in_ (App.index outidx) (App.index inidx) ↔
      Accepts a.net out in_ (App.index outidx) (App.index inidx) := by
  obtain ⟨r, target⟩ := Option.isSome_iff_exists.mp named
  obtain ⟨m, live⟩ := getModuleById_live target
  obtain ⟨stream, net, only⟩ := webPipelineConnect_net outidx inidx target source
  obtain ⟨m', after, -, -, slots⟩ := Net.setInput_modules_self live stream (App.index inidx)
  rw [net]
  constructor
  · rintro ⟨r', m'', port', target', live', at', requested⟩
    obtain rfl : r = r' := Option.some.inj (target.symm.trans target')
    obtain rfl : m' = m'' := Option.some.inj (after.symm.trans live')
    rcases slots with ⟨missing, same⟩ | ⟨port, new, at_, same, -, valid⟩
    · rw [inputPort_congr same, missing] at at'
      cases at'
    · rw [inputPort_congr same, inputPort_setSlot at_] at at'
      cases at'
      exact ⟨r, m, port, new, target, live, at_, requested, fun s is => (valid s is).2⟩
  · rintro ⟨r', m'', port, wanted, target', live', at', requested, valid⟩
    obtain rfl : r = r' := Option.some.inj (target.symm.trans target')
    obtain rfl : m = m'' := Option.some.inj (live.symm.trans live')
    obtain rfl := only wanted requested
    rcases slots with ⟨missing, same⟩ | ⟨port', new, at_, same, kept, -⟩
    · rw [missing] at at'
      cases at'
    · obtain rfl : port = port' := Option.some.inj (at'.symm.trans at_)
      rw [kept valid] at same
      exact ⟨r, m', { port with stream := wanted }, target, after, by rw [inputPort_congr same, inputPort_setSlot at'], requested⟩

/-- The reply to a connect request is honest exactly when the request can be met. -/
theorem connect_honest_iff (outidx inidx : Option Str) (named : (getModuleById a.net in_).isSome)
    (source : out = "NULL".toList ∨ (getModuleById a.net out).isSome) :
    Honest a out in_ outidx inidx ↔ Accepts a.net out in_ (App.index outidx) (App.index inidx) := by
  have connected := connected_iff outidx inidx named source
  constructor
  · intro honest
    exact connected.mp (honest.truthful.mp (reply_ok named source))
  · intro accepts
    exact ⟨iff_of_true (reply_ok named source) (connected.mpr accepts), fun refused => absurd accepts refused⟩

/-- Two modules that are connected. -/
def chain : App Platform.whole :=
  Machine.run App.step (App.boot Net.empty ⟨1, 0⟩ 5 false)
    [.create (some "Image".toList), .create (some "GrayScale".toList), .connect (some "Image1".toList) (some "GrayScale2".toList) none none]

theorem connect_honest_chain :
    Honest chain "Image1".toList "GrayScale2".toList none none ↔ Accepts chain.net "Image1".toList "GrayScale2".toList 0 0 :=
  connect_honest_iff none none (by decide +kernel) (.inr (by decide +kernel))

/-- An output that is not there: the reply is `ok` and the old connection is gone. -/
theorem connect_unknown_output :
    ¬ Honest chain "Image1".toList "GrayScale2".toList (some "5".toList) none ∧ chain.net.observers ⟨0, 0⟩ = [1] ∧
      (chain.webPipelineConnect (some "Image1".toList) (some "GrayScale2".toList) (some "5".toList) none).net.observers ⟨0, 0⟩ = [] := by
  refine ⟨fun honest => ?_, by decide +kernel, by decide +kernel⟩
  obtain ⟨_, _, _, _, _, _, requested⟩ := honest.truthful.mp (by decide +kernel)
  rw [Requested, if_neg (by decide)] at requested
  obtain ⟨k, s, found, output, _⟩ := requested
  have image : getModuleById chain.net "Image1".toList = some 0 := by decide +kernel
  have missing : chain.net.getOutput 0 (App.index (some "5".toList)) = none := by decide +kernel
  obtain rfl : 0 = k := Option.some.inj (image.symm.trans found)
  rw [missing] at output
  cases output

end Movid.Preset
