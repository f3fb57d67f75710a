import Movid.Osc.RoundTrip
import Movid.Output.Tuio2

/-!
# The datagrams of the TUIO modules

The bundles are built by `Add` and sent by `moOSC::send` as the bytes that `GetBuffer` returns. A receiver that makes a bundle of them finds
the messages that the module has described its frame with.
-/

namespace Movid.Output

open Preset (Platform)

variable {F : Type} (bits : F → Osc.Word)

def bytes (s : Str) : List Osc.Byte := s.map Osc.ch

def Arg.osc : Arg F → Osc.Arg
  | .text s => .text (bytes s)
  | .int n => .int n.toBitVec
  | .float x => .float (bits x)

/-- `new WOscMessage(path)` and an `Add` for each argument. -/
def Message.osc (m : Message F) : Except Osc.Failure Osc.WOscMessage := Osc.build (bytes m.path) (m.args.map (Arg.osc bits))

/-- `new WOscBundle()` and an `Add` for each message. -/
def Bundle.osc (b : Bundle F) : Except Osc.Failure Osc.WOscBundle :=
  b.foldlM (fun sum m => (m.osc bits).bind fun m => .ok (sum.addMessage m)) (.mk 1 [] [])

def contents : Osc.WOscBundle → List (List Osc.Byte × List Osc.Arg)
  | .mk _ messages _ => messages.map (·.contents)

/-- The bundle can be built, and if a datagram can have its size a receiver finds its messages in it. -/
def Carried (b : Bundle F) : Prop :=
  ∃ w, Bundle.osc bits b = .ok w ∧ w.getBuffer.length = w.getBufferLen ∧
    (w.getBufferLen < 2 ^ 31 → ∃ r, Osc.readDatagram w.getBuffer = .ok r ∧
      contents r = b.map fun m => (bytes m.path, m.args.map (Arg.osc bits)))

def Arg.Plain : Arg F → Prop
  | .text s => 0 ∉ bytes s
  | _ => True

/-- A path, and texts without zeros. -/
structure Message.Plain (m : Message F) : Prop where
  slash : (bytes m.path).head? = some (Osc.ch '/')
  noZero : 0 ∉ bytes m.path
  args : ∀ arg ∈ m.args, arg.Plain

variable {bits}

theorem Message.Plain.sendable {m : Message F} (plain : m.Plain) : Osc.Sendable (bytes m.path) (m.args.map (Arg.osc bits)) := by
  refine ⟨plain.slash, plain.noZero, fun arg member => ?_, fun done arg later shape => ?_⟩
  · obtain ⟨own, inside, rfl⟩ := List.mem_map.mp member
    have clean := plain.args own inside
    cases own with
    | text s => exact clean
    | int n => trivial
    | float x => trivial
  · have member : arg ∈ m.args.map (Arg.osc bits) := shape ▸ List.mem_append_right done List.mem_cons_self
    obtain ⟨own, _, rfl⟩ := List.mem_map.mp member
    cases own <;> trivial

theorem osc_plain {b : Bundle F} (plain : ∀ m ∈ b, m.Plain) :
    Bundle.osc bits b = .ok (.mk 1 (b.map fun m => Osc.message (bytes m.path) (m.args.map (Arg.osc bits))) []) := by
  have from' (done : List Osc.WOscMessage) : b.foldlM (fun sum m => (m.osc bits).bind fun m => .ok (sum.addMessage m)) (.mk 1 done []) =
      (.ok (.mk 1 (done ++ b.map fun m => Osc.message (bytes m.path) (m.args.map (Arg.osc bits))) []) :
        Except Osc.Failure Osc.WOscBundle) := by
    induction b generalizing done with
    | nil => rw [List.map_nil, List.append_nil]; rfl
    | cons m b ih =>
      have own : m.osc bits = .ok _ := (plain m List.mem_cons_self).sendable.build_ok
      rw [List.foldlM_cons, own]
      refine (ih (fun x member => plain x (List.mem_cons_of_mem _ member)) _).trans ?_
      rw [List.map_cons, List.append_assoc, List.singleton_append]
  exact from' []

theorem carried_of_plain {b : Bundle F} (plain : ∀ m ∈ b, m.Plain) : Carried bits b := by
  have well : (Osc.WOscBundle.mk 1 (b.map fun m => Osc.message (bytes m.path) (m.args.map (Arg.osc bits))) []).All Osc.Built := by
    refine .mk (fun w member => ?_) fun _ none => by cases none
    obtain ⟨m, inside, rfl⟩ := List.mem_map.mp member
    exact (plain m inside).sendable.built
  refine ⟨_, osc_plain plain, (Osc.length_getBuffer well).1, fun small => ⟨_, Osc.readDatagram_of_built well small, ?_⟩⟩
  rw [contents, List.map_map]
  exact List.map_congr_left fun m member => (plain m member).sendable.contents_message

/-! ### `moTuioModule` -/

variable {P : Platform} {wire : Wire P}

theorem plain_ints (ids : List Int32) : ∀ arg ∈ ids.map (Arg.int (F := F)), arg.Plain := by
  intro arg member
  obtain ⟨n, _, rfl⟩ := List.mem_map.mp member
  trivial

section

variable {blob : Container P} {name : String} {arg : Arg wire.Float} {args : List (Arg wire.Float)}

theorem int_plain (made : int wire blob name = some arg) : arg.Plain := by
  obtain ⟨n, _, rfl⟩ := Option.map_eq_some_iff.mp made
  trivial

theorem float_plain (made : float wire blob name = some arg) : arg.Plain := by
  obtain ⟨x, _, rfl⟩ := Option.map_eq_some_iff.mp made
  trivial

theorem Tuio.alive_plain (made : Tuio.alive wire blob = some arg) : arg.Plain := by
  obtain ⟨implements, _, made⟩ := Option.bind_eq_some_iff.mp made
  obtain ⟨tracked, _, made⟩ := Option.bind_eq_some_iff.mp made
  obtain ⟨pos, _, made⟩ := Option.bind_eq_some_iff.mp made
  split_ifs at made
  exact int_plain made

theorem Tuio.setObject_plain (made : Tuio.setObject wire blob = some args) : ∀ arg ∈ args, arg.Plain := by
  obtain ⟨s, hs, made⟩ := Option.bind_eq_some_iff.mp made
  obtain ⟨i, hi, made⟩ := Option.bind_eq_some_iff.mp made
  obtain ⟨x, hx, made⟩ := Option.bind_eq_some_iff.mp made
  obtain ⟨y, hy, made⟩ := Option.bind_eq_some_iff.mp made
  obtain ⟨a, ha, made⟩ := Option.bind_eq_some_iff.mp made
  cases made
  simp only [List.forall_mem_cons]
  exact ⟨int_plain hs, int_plain hi, float_plain hx, float_plain hy, float_plain ha, trivial, trivial, trivial, trivial, trivial,
    fun _ none => by cases none⟩

theorem Tuio.size_plain {sendsize : Bool} (made : Tuio.size wire sendsize blob = some args) : ∀ arg ∈ args, arg.Plain := by
  unfold Tuio.size at made
  split_ifs at made
  · obtain ⟨implements, _, made⟩ := Option.bind_eq_some_iff.mp made
    obtain ⟨size, _, made⟩ := Option.bind_eq_some_iff.mp made
    split_ifs at made
    · obtain ⟨w, hw, made⟩ := Option.bind_eq_some_iff.mp made
      obtain ⟨h, hh, made⟩ := Option.bind_eq_some_iff.mp made
      cases made
      simp only [List.forall_mem_cons]
      exact ⟨float_plain hw, float_plain hh, fun _ none => by cases none⟩
    · cases made
      exact fun _ none => by cases none
  · cases made
    exact fun _ none => by cases none

theorem Tuio.setCursor_plain {sendsize : Bool} (made : Tuio.setCursor wire sendsize blob = some args) : ∀ arg ∈ args, arg.Plain := by
  obtain ⟨s, hs, made⟩ := Option.bind_eq_some_iff.mp made
  obtain ⟨x, hx, made⟩ := Option.bind_eq_some_iff.mp made
  obtain ⟨y, hy, made⟩ := Option.bind_eq_some_iff.mp made
  obtain ⟨more, hm, made⟩ := Option.bind_eq_some_iff.mp made
  cases made
  simp only [List.forall_mem_append, List.forall_mem_cons]
  exact ⟨⟨int_plain hs, float_plain hx, float_plain hy, trivial, trivial, trivial, fun _ none => by cases none⟩, Tuio.size_plain hm⟩

end

theorem Tuio.path_plain (type : TuioType) : (bytes (Tuio.path type)).head? = some (Osc.ch '/') ∧ 0 ∉ bytes (Tuio.path type) := by
  cases type <;> decide

theorem Tuio.message_plain (type : TuioType) {text : Str} (clean : 0 ∉ bytes text) {args : List (Arg F)} (plain : ∀ arg ∈ args, arg.Plain) :
    ({ path := Tuio.path type, args := .text text :: args } : Message F).Plain :=
  ⟨(path_plain type).1, (path_plain type).2, List.forall_mem_cons.mpr ⟨clean, plain⟩⟩

theorem Tuio.set_plain {type : TuioType} {sendsize : Bool} {blob : Container P} {m : Message wire.Float}
    (made : Tuio.set wire type sendsize blob = some m) : m.Plain := by
  unfold Tuio.set at made
  obtain ⟨args, packed, rfl⟩ := Option.map_eq_some_iff.mp made
  refine message_plain type (by decide) ?_
  split_ifs at packed
  · exact setObject_plain packed
  · exact setCursor_plain packed

theorem Tuio.bundle_plain {type : TuioType} {fseq : Int32} {frame : Frame P} {b : Bundle wire.Float}
    (made : Tuio.bundle wire type fseq frame = some b) : ∀ m ∈ b, m.Plain := by
  obtain ⟨ids, alive, made⟩ := Option.bind_eq_some_iff.mp made
  obtain ⟨sets, each, made⟩ := Option.bind_eq_some_iff.mp made
  cases made
  refine List.forall_mem_cons.mpr ⟨message_plain type (by decide) fun arg member => ?_, List.forall_mem_append.mpr ⟨fun m member => ?_, ?_⟩⟩
  · obtain ⟨blob, _, made⟩ := Lists.forall₂_mem_right (Lists.forall₂_of_mapM alive) member
    exact alive_plain made
  · obtain ⟨blob, _, made⟩ := Lists.forall₂_mem_right (Lists.forall₂_of_mapM each) member
    exact set_plain made
  · exact List.forall_mem_singleton.mpr (message_plain type (by decide) (List.forall_mem_singleton.mpr trivial))

theorem Tuio.notifyData_plain {s t : Tuio wire} {frame : Frame P} (done : Tuio.notifyData wire s frame = some t)
    (plain : ∀ b ∈ s.sent, ∀ m ∈ b, m.Plain) : ∀ b ∈ t.sent, ∀ m ∈ b, m.Plain := by
  have sends {type : TuioType} (done : Tuio.send wire s type frame = some t) : ∀ b ∈ t.sent, ∀ m ∈ b, m.Plain := by
    obtain ⟨b, made, rfl⟩ := Option.map_eq_some_iff.mp done
    exact List.forall_mem_append.mpr ⟨plain, List.forall_mem_singleton.mpr (bundle_plain made)⟩
  unfold Tuio.notifyData at done
  split at done
  · cases done
    exact plain
  · obtain ⟨type, _, done⟩ := Option.bind_eq_some_iff.mp done
    exact sends done
  · exact sends done

/-! ### `moTuio2Module` -/

namespace Tuio2

variable {blob : Container P} {m : Message wire.Float} {ms : List (Message wire.Float)}

theorem ptr_plain (made : ptr wire blob = some m) : m.Plain := by
  obtain ⟨s, hs, made⟩ := Option.bind_eq_some_iff.mp made
  obtain ⟨x, hx, made⟩ := Option.bind_eq_some_iff.mp made
  obtain ⟨y, hy, made⟩ := Option.bind_eq_some_iff.mp made
  cases made
  refine ⟨(by decide : (bytes "/tuio2/ptr".toList).head? = _), (by decide : 0 ∉ bytes "/tuio2/ptr".toList), ?_⟩
  simp only [List.forall_mem_cons]
  exact ⟨int_plain hs, trivial, int_plain hs, float_plain hx, float_plain hy, trivial, trivial, fun _ none => by cases none⟩

theorem bnd_plain (made : bnd wire blob = some m) : m.Plain := by
  obtain ⟨s, hs, made⟩ := Option.bind_eq_some_iff.mp made
  obtain ⟨x, hx, made⟩ := Option.bind_eq_some_iff.mp made
  obtain ⟨y, hy, made⟩ := Option.bind_eq_some_iff.mp made
  obtain ⟨w, hw, made⟩ := Option.bind_eq_some_iff.mp made
  obtain ⟨h, hh, made⟩ := Option.bind_eq_some_iff.mp made
  cases made
  refine ⟨(by decide : (bytes "/tuio2/bnd".toList).head? = _), (by decide : 0 ∉ bytes "/tuio2/bnd".toList), ?_⟩
  simp only [List.forall_mem_cons]
  exact ⟨int_plain hs, float_plain hx, float_plain hy, trivial, float_plain hw, float_plain hh, trivial, fun _ none => by cases none⟩

theorem packBlob_plain (made : packBlob wire blob = some ms) : ∀ m ∈ ms, m.Plain := by
  obtain ⟨pointer, first, made⟩ := Option.bind_eq_some_iff.mp made
  obtain ⟨implements, _, made⟩ := Option.bind_eq_some_iff.mp made
  obtain ⟨size, _, made⟩ := Option.bind_eq_some_iff.mp made
  split_ifs at made
  · obtain ⟨bounds, second, made⟩ := Option.bind_eq_some_iff.mp made
    cases made
    exact List.forall_mem_cons.mpr ⟨ptr_plain first, List.forall_mem_singleton.mpr (bnd_plain second)⟩
  · cases made
    exact List.forall_mem_singleton.mpr (ptr_plain first)

theorem packFiducial_plain (made : packFiducial wire blob = some ms) : ∀ m ∈ ms, m.Plain := by
  obtain ⟨s, hs, made⟩ := Option.bind_eq_some_iff.mp made
  obtain ⟨x, hx, made⟩ := Option.bind_eq_some_iff.mp made
  obtain ⟨y, hy, made⟩ := Option.bind_eq_some_iff.mp made
  obtain ⟨a, ha, made⟩ := Option.bind_eq_some_iff.mp made
  cases made
  refine List.forall_mem_singleton.mpr
    ⟨(by decide : (bytes "/tuio2/tok".toList).head? = _), (by decide : 0 ∉ bytes "/tuio2/tok".toList), ?_⟩
  simp only [List.forall_mem_cons]
  exact ⟨int_plain hs, int_plain hs, int_plain hs, float_plain hx, float_plain hy, float_plain ha, fun _ none => by cases none⟩

theorem pack_plain {format : Format} {blobs : List (Container P)} (made : pack wire format blobs = some ms) : ∀ m ∈ ms, m.Plain := by
  unfold pack at made
  split_ifs at made
  · cases made
    exact fun _ none => by cases none
  · obtain ⟨parts, each, rfl⟩ := Option.map_eq_some_iff.mp made
    intro m member
    obtain ⟨part, inside, here⟩ := List.mem_flatten.mp member
    obtain ⟨blob, _, packed⟩ := Lists.forall₂_mem_right (Lists.forall₂_of_mapM each) inside
    cases format with
    | fiducial => exact packFiducial_plain packed m here
    | cursor => exact packBlob_plain packed m here
    | unknown => exact packBlob_plain packed m here

theorem relations_plain {scan : Scan} {blobs : List (Container P)} (made : relations wire scan blobs = some ms) : ∀ m ∈ ms, m.Plain := by
  unfold relations at made
  split_ifs at made
  · obtain ⟨links, each, rfl⟩ := Option.map_eq_some_iff.mp made
    refine List.forall_mem_cons.mpr ⟨⟨(by decide : (bytes "/tuio2/ala".toList).head? = _), (by decide : 0 ∉ bytes "/tuio2/ala".toList),
      plain_ints _⟩, fun m member => ?_⟩
    obtain ⟨parent, _, link⟩ := Lists.forall₂_mem_right (Lists.forall₂_of_mapM each) member
    obtain ⟨children, _, rfl⟩ := Option.map_eq_some_iff.mp link
    exact ⟨(by decide : (bytes "/tuio2/coa".toList).head? = _), (by decide : 0 ∉ bytes "/tuio2/coa".toList),
      List.forall_mem_cons.mpr ⟨trivial, List.forall_mem_cons.mpr ⟨trivial, plain_ints _⟩⟩⟩
  · cases made
    exact fun _ none => by cases none

theorem notifyData_plain {s t : Tuio2 wire} {frame : Frame2 P} (done : notifyData wire s frame = some t)
    (plain : ∀ b ∈ s.sent, ∀ m ∈ b, m.Plain) : ∀ b ∈ t.sent, ∀ m ∈ b, m.Plain := by
  obtain ⟨scan, _, done⟩ := Option.bind_eq_some_iff.mp done
  obtain ⟨format, _, done⟩ := Option.bind_eq_some_iff.mp done
  obtain ⟨packed, made, done⟩ := Option.bind_eq_some_iff.mp done
  obtain ⟨links, linked, done⟩ := Option.bind_eq_some_iff.mp done
  have number : ({ path := "/tuio2/frm".toList, args := [.int s.frame, .int frame.time, .text "movid".toList] } : Message wire.Float).Plain :=
    ⟨(by decide : (bytes "/tuio2/frm".toList).head? = _), (by decide : 0 ∉ bytes "/tuio2/frm".toList),
      List.forall_mem_cons.mpr ⟨trivial, List.forall_mem_cons.mpr ⟨trivial,
        List.forall_mem_singleton.mpr (by decide : 0 ∉ bytes "movid".toList)⟩⟩⟩
  have alive : ({ path := "/tuio2/alv".toList, args := scan.alive.map .int } : Message wire.Float).Plain :=
    ⟨(by decide : (bytes "/tuio2/alv".toList).head? = _), (by decide : 0 ∉ bytes "/tuio2/alv".toList), plain_ints _⟩
  cases done
  dsimp only
  split_ifs
  · exact plain
  · refine List.forall_mem_append.mpr ⟨plain, List.forall_mem_singleton.mpr ?_⟩
    exact List.forall_mem_cons.mpr ⟨number, List.forall_mem_cons.mpr ⟨alive,
      List.forall_mem_append.mpr ⟨pack_plain made, relations_plain linked⟩⟩⟩

end Tuio2

/-- In every run of either module each bundle can be built, and a receiver finds its messages in the datagram. -/
theorem runs_carried (bits : wire.Float → Osc.Word) :
    (∀ frames s, Machine.attempt (Tuio.notifyData wire) (Tuio.start wire) frames = some s → ∀ b ∈ s.sent, Carried bits b) ∧
      ∀ frames s, Machine.attempt (Tuio2.notifyData wire) (Tuio2.start wire) frames = some s → ∀ b ∈ s.sent, Carried bits b := by
  constructor
  · intro frames s reached b member
    exact carried_of_plain (Machine.attempt_invariant (I := fun s : Tuio wire => ∀ b ∈ s.sent, ∀ m ∈ b, m.Plain)
      (fun _ _ _ done plain => Tuio.notifyData_plain done plain) (fun _ none => by cases none) reached b member)
  · intro frames s reached b member
    exact carried_of_plain (Machine.attempt_invariant (I := fun s : Tuio2 wire => ∀ b ∈ s.sent, ∀ m ∈ b, m.Plain)
      (fun _ _ _ done plain => Tuio2.notifyData_plain done plain) (fun _ none => by cases none) reached b member)

/-- The first frame with a blob, on the wire of whole numbers. -/
theorem runs_carried_touch : ∃ s, Machine.attempt (Tuio.notifyData Tuio.wholeWire) (Tuio.start Tuio.wholeWire) [⟨true, [Tuio.touch]⟩] = some s ∧
    s.sent.length = 1 ∧ ∀ b ∈ s.sent, Carried (BitVec.ofInt 32) b := by
  obtain ⟨s, reached⟩ := Option.isSome_iff_exists.mp
    (by decide : (Machine.attempt (Tuio.notifyData Tuio.wholeWire) (Tuio.start Tuio.wholeWire) [⟨true, [Tuio.touch]⟩]).isSome)
  have count : (Machine.attempt (Tuio.notifyData Tuio.wholeWire) (Tuio.start Tuio.wholeWire) [⟨true, [Tuio.touch]⟩]).map (·.sent.length) =
      some 1 := by decide
  rw [reached] at count
  exact ⟨s, reached, Option.some.inj count, (@runs_carried Platform.whole Tuio.wholeWire (BitVec.ofInt 32)).1 _ s reached⟩

end Movid.Output
