import TurtleCurves.Proofs.Documents
import TurtleCurves.Proofs.Records
import TurtleCurves.Turtle.Json

/-!
# Values are read as they are written

Points and orientations, primitives and commands, alphabets, turtles, options, drawings and
polylines are read back from what is written of them, as long as their numbers are finite; a number
that is not finite has no notation and is lost.

The types are built from few kinds of parts, and so is the proof. Options and lists are faithful if
their parts are. A row of numbers is read number by number. A choice is read back because its names
are different (`decodeChoice_plain`, `decodeChoice_carrying`), and a record because its fields are
(`Codec.keeps_record`).
-/

namespace TurtleCurves

namespace Json

/-! ## Options and lists -/

namespace Codec

variable {τ : Type}

/-- A value that is read back is read from every text that has its tokens. -/
theorem Keeps.decodeDocument {codec : Codec τ} {v : τ} (h : codec.Keeps v) {text : String}
    (htext : tokens text.toList = (codec.encode v).written) :
    decodeDocument codec.decode text = .ok v :=
  (decodeDocument_of_written htext).trans h.rereads

/-- A value or nothing. -/
def option (codec : Codec τ) : Codec (Option τ) :=
  ⟨decodeOption codec.decode, ofOption codec.encode, fun v => v.toList.flatMap codec.numbers,
    .optional codec.shape⟩

/-- Values in a row. -/
def list (codec : Codec τ) : Codec (List τ) :=
  ⟨decodeList codec.decode, fun vs => .array (vs.map codec.encode),
    fun vs => vs.flatMap codec.numbers, .list codec.shape⟩

/-- A value that is not written as `null` may be left out. -/
theorem Faithful.option {codec : Codec τ} (h : codec.Faithful)
    (hnull : ∀ v, (codec.encode v).reading ≠ .null) : codec.option.Faithful := by
  intro v hv
  cases v with
  | none => exact ⟨.absent _, rfl⟩
  | some v =>
    have hkeeps : codec.Keeps v := h v fun x hx => hv x (List.mem_flatMap.2 ⟨v, by simp, hx⟩)
    refine ⟨.present hkeeps.fits, ?_⟩
    -- The value is not `null`, so it is read as it would be without the option.
    have hreading : decodeOption codec.decode (codec.encode v).reading =
        (codec.decode (codec.encode v).reading).map some := by
      cases hr : (codec.encode v).reading with
      | null => exact absurd hr (hnull v)
      | _ => rfl
    change decodeOption codec.decode (codec.encode v).reading = _
    rw [hreading, hkeeps.rereads]
    rfl

/-- A list is read back if its values are. -/
theorem Faithful.list {codec : Codec τ} (h : codec.Faithful) : codec.list.Faithful := by
  intro vs hvs
  have hkeeps : ∀ v ∈ vs, codec.Keeps v := fun v hv =>
    h v fun x hx => hvs x (List.mem_flatMap.2 ⟨v, hv, hx⟩)
  constructor
  · refine .list fun item hitem => ?_
    obtain ⟨v, hv, rfl⟩ := List.mem_map.1 hitem
    exact (hkeeps v hv).fits
  · have hitems : (readingItems (vs.map codec.encode)).mapM codec.decode = .ok vs := by
      refine mapM_eq_ok_of_map ?_
      rw [readingItems_eq_map, List.map_map, List.map_map]
      exact List.map_congr_left fun v hv => (hkeeps v hv).rereads
    change decodeList codec.decode (.array (readingItems (vs.map codec.encode)) true) = _
    rw [decodeList, hitems]
    rfl

end Codec

/-! ## Rows of numbers -/

/-- Finite numbers are written as numbers, not as `null`. -/
theorem map_ofFloat {xs : List Float} (h : ∀ x ∈ xs, x.isFinite = true) :
    xs.map ofFloat = xs.map .real :=
  List.map_congr_left fun x hx => if_pos (h x hx)

/-- A row is read from any place in it to its end. -/
theorem decodeNumbersFrom_reals (count index : Nat) (xs : List Float) :
    decodeNumbersFrom count true xs.length index (readingItems (xs.map .real)) = .ok xs := by
  -- So many items are asked for as are left, so the row ends with the last of them.
  induction xs generalizing index with
  | nil => rfl
  | cons x xs ih =>
    rw [List.map_cons, readingItems, List.length_cons, decodeNumbersFrom, ih]
    rfl

/-- A row of finite numbers is read back. -/
theorem rereads_numbers {xs : List Float} (h : ∀ x ∈ xs, x.isFinite = true) :
    Rereads (decodeNumbers xs.length) (fun xs => .array (xs.map ofFloat)) xs := by
  rw [Rereads, map_ofFloat h]
  exact decodeNumbersFrom_reals xs.length 0 xs

/-- A row of finite numbers has the shape of a row. -/
theorem fits_numbers {xs : List Float} (h : ∀ x ∈ xs, x.isFinite = true) :
    Fits (.array (xs.map ofFloat)) (.row xs.length) := by
  rw [map_ofFloat h]
  exact .row xs

/-! ## Choices -/

section Choice

variable {τ σ : Type} {variants : List (Variant τ)} {name : String}

/-- Every alternative is found by its name. -/
theorem variant_name (hnames : (variants.map Variant.name).Nodup) {v : Variant τ}
    (h : v ∈ variants) : variant variants v.name = .ok v := by
  rw [variant, find?_name hnames h]

/-- A bare name is read as its value. -/
theorem decodeChoice_plain (hnames : (variants.map Variant.name).Nodup) {value : τ}
    (h : .plain name value ∈ variants) : decodeChoice variants (.text name) = .ok value := by
  have hvariant : variant variants name = .ok (.plain name value) := variant_name hnames h
  rw [decodeChoice, hvariant]
  rfl

/-- A name with a payload that is read back is read as its value. -/
theorem decodeChoice_carrying (hnames : (variants.map Variant.name).Nodup) {codec : Codec σ}
    {v : σ} (hv : codec.Keeps v) {make : σ → τ}
    (h : .carrying name (fun r => (codec.decode r).map make) ∈ variants) :
    decodeChoice variants (Json.carrying name (codec.encode v)).reading = .ok (make v) := by
  have hvariant : variant variants name = .ok (.carrying name fun r => (codec.decode r).map make) :=
    variant_name hnames h
  change decodeChoice variants (.object [(some name, (codec.encode v).reading)] true) = _
  rw [decodeChoice, hvariant]
  change ((codec.decode (codec.encode v).reading).map make).bind _ = _
  rw [hv.rereads]
  rfl

end Choice

end Json

open Json

/-! ## Points and orientations -/

/-- Points as arrays of three numbers. -/
def Vec3.codec : Codec (Vec3 Float) :=
  ⟨Vec3.decode, Vec3.toJson, fun v => [v.x, v.y, v.z], .row 3⟩

/-- Points are read back. -/
theorem Vec3.faithful : Vec3.codec.Faithful := by
  intro v hv
  have hread : decodeNumbers 3 v.toJson.reading = .ok [v.x, v.y, v.z] := rereads_numbers hv
  refine ⟨fits_numbers hv, ?_⟩
  change (decodeNumbers 3 v.toJson.reading).bind _ = _
  rw [hread]
  rfl

/-- Orientations as arrays of four numbers. -/
def Rotation.codec : Codec (Rotation Float) :=
  ⟨Rotation.decode, Rotation.toJson, fun q => [q.x, q.y, q.z, q.w], .row 4⟩

/-- Orientations are read back. -/
theorem Rotation.faithful : Rotation.codec.Faithful := by
  intro q hq
  have hread : decodeNumbers 4 q.toJson.reading = .ok [q.x, q.y, q.z, q.w] := rereads_numbers hq
  refine ⟨fits_numbers hq, ?_⟩
  change (decodeNumbers 4 q.toJson.reading).bind _ = _
  rw [hread]
  rfl

/-! ## Names -/

namespace Alphabet

/-- Alphabets as names. -/
def codec : Codec Alphabet :=
  ⟨decode, toJson, fun _ => [], .choice ["Standard", "Classic"] []⟩

/-- Alphabets are read back. -/
theorem faithful : codec.Faithful := by
  intro a _
  cases a with
  | standard | classic =>
    exact ⟨.bare (by decide), decodeChoice_plain (by decide) (by simp [jsonName])⟩

end Alphabet

namespace Command

/-- The payload of a command. -/
def numbers : Command Float → List Float
  | lift s | yaw s | yawSecondary s | pitch s | roll s | stepDelta s => [s]
  | draw | drawScaled | move | drawFromStart | roundTrip | reverseTurns | scale | shrink
  | colorToggle | push | pop | ignore => []

/-- Commands as names, six of them with a number. -/
def codec : Codec (Command Float) where
  decode := decode
  encode := toJson
  numbers := numbers
  shape := .choice
    ["Draw", "DrawScaled", "Move", "DrawFromStart", "RoundTrip", "ReverseTurns", "Scale", "Shrink",
      "ColorToggle", "Push", "Pop", "Ignore"]
    [("Lift", .real), ("Yaw", .real), ("YawSecondary", .real), ("Pitch", .real), ("Roll", .real),
      ("StepDelta", .real)]

/-- No two commands have one name. -/
theorem nodup_names : (variants.map Variant.name).Nodup := by
  decide

/-- Commands are read back, with their numbers. -/
theorem faithful : codec.Faithful := by
  intro cmd hcmd
  -- There are two kinds of commands, bare names and names with a number.
  cases cmd with
  | draw | drawScaled | move | drawFromStart | roundTrip | reverseTurns | scale | shrink
  | colorToggle | push | pop | ignore =>
    exact ⟨.bare (by simp), decodeChoice_plain nodup_names (by simp [variants])⟩
  | lift s | yaw s | yawSecondary s | pitch s | roll s | stepDelta s =>
    have hs : Codec.double.Keeps s := Codec.keeps_double (hcmd s (List.mem_singleton_self s))
    exact ⟨.carrying (by simp [Codec.double]) hs.fits,
      decodeChoice_carrying nodup_names hs (by simp [variants, numbered, Codec.double])⟩

end Command

namespace Primitive

/-- The coordinates or the scale of a primitive. -/
def numbers : Primitive Float → List Float
  | moveTo p | lineTo p => Vec3.codec.numbers p
  | setScale s => [s]
  | setColor _ => []

/-- Primitives as names with a payload. -/
def codec : Codec (Primitive Float) where
  decode := decode
  encode := toJson
  numbers := numbers
  shape := .choice []
    [("MoveTo", .row 3), ("LineTo", .row 3), ("SetColor", .integer), ("SetScale", .real)]

/-- Primitives are read back, whatever they carry. -/
theorem faithful : codec.Faithful := by
  intro p hp
  cases p with
  | moveTo v | lineTo v =>
    have hv : Vec3.codec.Keeps v := Vec3.faithful v hp
    exact ⟨.carrying (by simp [Vec3.codec]) hv.fits,
      decodeChoice_carrying (by decide) hv (by simp [Vec3.codec])⟩
  | setColor c =>
    have hc : Codec.uint64.Keeps c := Codec.keeps_uint64 c
    exact ⟨.carrying (by simp [Codec.uint64]) hc.fits,
      decodeChoice_carrying (by decide) hc (by simp [Codec.uint64])⟩
  | setScale s =>
    have hs : Codec.double.Keeps s := Codec.keeps_double (hp s (List.mem_singleton_self s))
    exact ⟨.carrying (by simp [Codec.double]) hs.fits,
      decodeChoice_carrying (by decide) hs (by simp [Codec.double])⟩

end Primitive

/-! ## Records -/

namespace TurtleMotion

/-- The numbers of a grammar as objects with three members. -/
def codec : Codec (TurtleMotion Float) :=
  .record schema (fun m => [m.rotationAngle, m.startingAngle, m.scaleCoefficient])
    [("rotation_angle", .real), ("starting_angle", .real), ("scale_coefficient", .real)]

/-- The numbers of a grammar are read back. -/
theorem faithful : codec.Faithful := by
  intro m hm
  have hkeeps : ∀ x ∈ [m.rotationAngle, m.startingAngle, m.scaleCoefficient],
      Codec.double.Keeps x := fun x hx => Codec.keeps_double (hm x hx)
  refine Codec.keeps_record (by decide) ?_
  exact .cons (hkeeps _ (by simp)) <| .cons (hkeeps _ (by simp)) <| .cons (hkeeps _ (by simp)) <|
    .nil _

end TurtleMotion

namespace DrawingOptions

/-- Options as objects with seven members. -/
def codec : Codec (DrawingOptions Float) :=
  .record schema (fun c => [c.unitLength, c.secondaryAngle, c.stepDelta])
    [("unit_length", .real), ("color_count", .integer), ("secondary_angle", .real),
      ("step_delta", .real), ("max_stack_depth", .integer), ("max_symbols", .optional .integer),
      ("profile", Alphabet.codec.shape)]

/-- Options are read back, with or without a ceiling on symbols. -/
theorem faithful : codec.Faithful := by
  intro c hc
  have hkeeps : ∀ x ∈ [c.unitLength, c.secondaryAngle, c.stepDelta], Codec.double.Keeps x :=
    fun x hx => Codec.keeps_double (hc x hx)
  -- A ceiling is a number, so it is not taken for the `null` of a missing one.
  have hceiling : Codec.uint64.option.Keeps c.maxSymbols :=
    Codec.Faithful.option (fun n _ => Codec.keeps_uint64 n) (fun _ h => nomatch h) c.maxSymbols
      (by simp [Codec.option, Codec.uint64])
  have halphabet : Alphabet.codec.Keeps c.alphabet :=
    Alphabet.faithful c.alphabet fun _ hx => nomatch hx
  refine Codec.keeps_record (by decide) ?_
  exact .cons (hkeeps _ (by simp)) <| .cons (Codec.keeps_uint64 _) <|
    .cons (hkeeps _ (by simp)) <| .cons (hkeeps _ (by simp)) <| .cons (Codec.keeps_uint64 _) <|
    .cons hceiling <| .cons halphabet <| .nil _

end DrawingOptions

namespace Turtle

/-- Turtles as objects with five members. -/
def codec : Codec (Turtle Float) :=
  .record schema
    (fun t => Vec3.codec.numbers t.position ++ Rotation.codec.numbers t.rotation ++
      [t.stepLength, t.turnSign])
    [("position", .row 3), ("rotation", .row 4), ("step_length", .real),
      ("pen_color_index", .integer), ("turn_sign", .real)]

/-- Turtles are read back. -/
theorem faithful : codec.Faithful := by
  intro t ht
  obtain ⟨hvectors, hnumbers⟩ := List.forall_mem_append.1 ht
  obtain ⟨hposition, hrotation⟩ := List.forall_mem_append.1 hvectors
  have hkeeps : ∀ x ∈ [t.stepLength, t.turnSign], Codec.double.Keeps x := fun x hx =>
    Codec.keeps_double (hnumbers x hx)
  refine Codec.keeps_record (by decide) ?_
  exact .cons (Vec3.faithful _ hposition) <| .cons (Rotation.faithful _ hrotation) <|
    .cons (hkeeps _ (by simp)) <| .cons (Codec.keeps_uint64 _) <| .cons (hkeeps _ (by simp)) <|
    .nil _

end Turtle

namespace Drawing

/-- Paths as objects with the list of their primitives. -/
def codec : Codec (Drawing Float) :=
  .record schema (fun path => path.toList.flatMap Primitive.numbers)
    [("primitives", .list Primitive.codec.shape)]

/-- Drawings are read back, primitive by primitive. -/
theorem faithful : codec.Faithful := by
  intro path hpath
  have hprimitives : Primitive.codec.list.Keeps path.toList := Primitive.faithful.list _ hpath
  refine Codec.keeps_record (by decide) ?_
  exact .cons hprimitives <| .nil _

end Drawing

namespace Polyline

/-- Polylines as objects with their colour and the list of their points. -/
def codec : Codec (Polyline Float) :=
  .record schema (fun run => run.points.flatMap Vec3.codec.numbers)
    [("color", .integer), ("points", .list (.row 3))]

/-- Polylines are read back, point by point. -/
theorem faithful : codec.Faithful := by
  intro run hrun
  have hpoints : Vec3.codec.list.Keeps run.points := Vec3.faithful.list _ hrun
  refine Codec.keeps_record (by decide) ?_
  exact .cons (Codec.keeps_uint64 _) <| .cons hpoints <| .nil _

end Polyline

/-! ## All values -/

/-- Every value with finite numbers is written in the shape of its type, is read back from what is
written of it, and is read from every text that has its tokens. -/
def Json.Codec.RoundTrips {τ : Type} (codec : Codec τ) : Prop :=
  ∀ v, (∀ x ∈ codec.numbers v, x.isFinite = true) →
    Fits (codec.encode v) codec.shape ∧ codec.decode (codec.encode v).reading = .ok v ∧
      ∀ text, tokens text.toList = (codec.encode v).written →
        decodeDocument codec.decode text = .ok v

/-- What is read back from what is written of it is read from every text with its tokens. -/
theorem Json.Codec.Faithful.roundTrips {τ : Type} {codec : Codec τ} (h : codec.Faithful) :
    codec.RoundTrips := fun v hv =>
  ⟨(h v hv).fits, (h v hv).rereads, fun _ htext => (h v hv).decodeDocument htext⟩

/-- Grammar records, options, the numbers of a grammar, commands, turtles, alphabets, primitives,
drawings and polylines are read back from what is written of them, and records are written as
objects with the members that their codecs list, names without a payload as strings, names with a
payload as objects with one member, points and orientations as rows of numbers. -/
theorem values_roundTrip :
    GrammarRecord.codec.RoundTrips ∧ DrawingOptions.codec.RoundTrips ∧
      TurtleMotion.codec.RoundTrips ∧ Command.codec.RoundTrips ∧ Turtle.codec.RoundTrips ∧
      Alphabet.codec.RoundTrips ∧ Primitive.codec.RoundTrips ∧ Drawing.codec.RoundTrips ∧
      Polyline.codec.RoundTrips :=
  ⟨GrammarRecord.faithful.roundTrips, DrawingOptions.faithful.roundTrips,
    TurtleMotion.faithful.roundTrips, Command.faithful.roundTrips, Turtle.faithful.roundTrips,
    Alphabet.faithful.roundTrips, Primitive.faithful.roundTrips, Drawing.faithful.roundTrips,
    Polyline.faithful.roundTrips⟩

/-- A command with a payload and a polyline of one point. -/
theorem values_roundTrip_yaw :
    decodeDocument Command.decode "\x7b\"Yaw\": -1.5\x7d" = .ok (.yaw (-1.5)) ∧
      decodeDocument Polyline.schema.decode "\x7b\"color\":2,\"points\":[[0.5,1.0,-2.5]]\x7d" =
        .ok ⟨2, [⟨0.5, 1, -2.5⟩]⟩ := by
  obtain ⟨-, -, -, hcommand, -, -, -, -, hpolyline⟩ := values_roundTrip
  constructor
  · have hfinite : ∀ x ∈ [(-1.5 : Float)], x.isFinite = true := by decide +kernel
    refine (hcommand (.yaw (-1.5)) hfinite).2.2 _ ?_
    simp only [String.reduceToList]
    with_unfolding_all rfl
  · have hfinite : ∀ x ∈ [(0.5 : Float), 1, -2.5], x.isFinite = true := by decide +kernel
    refine (hpolyline ⟨2, [⟨0.5, 1, -2.5⟩]⟩ hfinite).2.2 _ ?_
    simp only [String.reduceToList]
    with_unfolding_all rfl

end TurtleCurves
