import SceneCode.Proofs.Json.Reads
import SceneCode.Scene.Reader
import SceneCode.Scene.Writer

namespace SceneCode
open Json

instance : NamesApart ScaleMode := ⟨by rintro ⟨⟩ <;> rfl⟩
instance : NamesApart StrokeAlign := ⟨by rintro ⟨⟩ <;> rfl⟩
instance : NamesApart LayoutAlign := ⟨by rintro ⟨⟩ <;> rfl⟩
instance : NamesApart HorizontalAlign := ⟨by rintro ⟨⟩ <;> rfl⟩
instance : NamesApart VerticalAlign := ⟨by rintro ⟨⟩ <;> rfl⟩
instance : NamesApart AutoResize := ⟨by rintro ⟨⟩ <;> rfl⟩
instance : NamesApart TextDecoration := ⟨by rintro ⟨⟩ <;> rfl⟩
instance : NamesApart TextCase := ⟨by rintro ⟨⟩ <;> rfl⟩
instance : NamesApart SpacingUnit := ⟨by rintro ⟨⟩ <;> rfl⟩

section Paints

theorem Rgb.reads (c : Rgb) : Reads Rgb.ofJson c.toJson c := by
  refine reads_record fun r ⟨hr, hg, hb, _⟩ => ?_
  rw [Record.find_of_said hr (reads_number _), Record.find_of_said hg (reads_number _),
    Record.find_of_said hb (reads_number _)]
  rfl

theorem Rgba.reads (c : Rgba) : Reads Rgba.ofJson c.toJson c := by
  refine reads_record fun r ⟨hr, hg, hb, ha, _⟩ => ?_
  rw [Record.find_of_said hr (reads_number _), Record.find_of_said hg (reads_number _),
    Record.find_of_said hb (reads_number _), Record.findD_of_said _ ha (reads_number _)]
  rfl

theorem Point.reads (p : Point Float) : Reads Point.ofJson p.toJson p := by
  refine reads_record fun r ⟨hx, hy, _⟩ => ?_
  rw [Record.find_of_said hx (reads_number _), Record.find_of_said hy (reads_number _)]
  rfl

theorem ColorStop.reads (s : ColorStop) : Reads ColorStop.ofJson s.toJson s := by
  refine reads_record fun r ⟨hposition, hcolor, _⟩ => ?_
  rw [Record.find_of_said hposition (reads_number _), Record.find_of_said hcolor s.color.reads]
  rfl

theorem Transform.reads (t : Transform) : Reads Transform.ofJson t.toJson t := by
  rintro _ ⟨_, rfl, _, _, rfl, ⟨_, rfl, _, _, rfl, rfl, _, _, rfl, rfl, _, _, rfl, rfl, rfl⟩,
    _, _, rfl, ⟨_, rfl, _, _, rfl, rfl, _, _, rfl, rfl, _, _, rfl, rfl, rfl⟩, rfl⟩
  rfl

theorem SolidPaint.reads (p : SolidPaint) : Reads SolidPaint.ofJson (Paint.solid p).toJson p := by
  refine reads_record fun r ⟨_, hcolor, hopacity, hvisible, _⟩ => ?_
  rw [Record.find_of_said hcolor p.color.reads, Record.findD_of_said _ hopacity (reads_number _),
    Record.findD_of_said _ hvisible (reads_flag _)]
  rfl

theorem GradientPaint.reads (kind : GradientKind) (p : GradientPaint) :
    Reads GradientPaint.ofJson (Paint.gradient kind p).toJson p := by
  refine reads_record fun r ⟨_, hstops, htransform, hopacity, hvisible, _⟩ => ?_
  rw [Record.find_of_said hstops (reads_list fun s _ => s.reads),
    Record.findD_of_said _ htransform p.transform.reads, Record.findD_of_said _ hopacity (reads_number _),
    Record.findD_of_said _ hvisible (reads_flag _)]
  rfl

theorem ImagePaint.reads (p : ImagePaint) : Reads ImagePaint.ofJson (Paint.image p).toJson p := by
  refine reads_record fun r ⟨_, hscale, hhash, hopacity, hvisible, _⟩ => ?_
  rw [Record.findD_of_said _ hscale (Named.reads _),
    Record.findD_of_said _ hhash (reads_nullable rfl reads_text _),
    Record.findD_of_said _ hopacity (reads_number _), Record.findD_of_said _ hvisible (reads_flag _)]
  rfl

theorem PaintKind.ofName_name (kind : GradientKind) : PaintKind.ofName kind.name = .gradient kind := by
  cases kind <;> rfl

theorem Paint.reads (inside : Bool) (p : Paint) : Reads (Paint.ofJson inside) p.toJson p := by
  cases p with
  | solid p => exact reads_tagged (p.reads.map Paint.solid)
  | gradient kind p =>
    refine reads_tagged ?_
    simp only [PaintKind.kinds, PaintKind.ofName_name]
    exact (p.reads kind).map (Paint.gradient kind)
  | image p => exact reads_tagged (p.reads.map Paint.image)
  | unknown => exact reads_tagged (reads_noFields _)

theorem reads_paints (paints : List Paint) : Reads paintsOfJson (.array (paints.map Paint.toJson)) paints :=
  reads_list fun p _ => p.reads true

end Paints

section Effects

theorem ShadowEffect.reads (kind : String) (s : ShadowEffect) :
    Reads ShadowEffect.ofJson (s.toJson kind) s := by
  refine reads_record fun r ⟨_, hcolor, hoffset, hradius, hspread, hvisible, _⟩ => ?_
  rw [Record.find_of_said hcolor s.color.reads, Record.findD_of_said _ hoffset s.offset.reads,
    Record.findD_of_said _ hradius (reads_number _), Record.findD_of_said _ hspread (reads_number _),
    Record.findD_of_said _ hvisible (reads_flag _)]
  rfl

theorem BlurEffect.reads (kind : String) (b : BlurEffect) : Reads BlurEffect.ofJson (b.toJson kind) b := by
  refine reads_record fun r ⟨_, hradius, hvisible, _⟩ => ?_
  rw [Record.find_of_said hradius (reads_number _), Record.findD_of_said _ hvisible (reads_flag _)]
  rfl

theorem Effect.reads (e : Effect) : Reads Effect.ofJson e.toJson e := by
  cases e with
  | dropShadow s => exact reads_tagged ((s.reads _).map Effect.dropShadow)
  | innerShadow s => exact reads_tagged ((s.reads _).map Effect.innerShadow)
  | layerBlur b => exact reads_tagged ((b.reads _).map Effect.layerBlur)
  | backgroundBlur b => exact reads_tagged ((b.reads _).map Effect.backgroundBlur)
  | unknown => exact reads_tagged (reads_noFields _)

end Effects

section Bases
variable {r : Record}

theorem CornerRadii.reads (c : CornerRadii) : Reads CornerRadii.ofJson c.toJson c := by
  refine reads_record fun r ⟨htl, htr, hbr, hbl, _⟩ => ?_
  rw [Record.findD_of_said _ htl (reads_number _), Record.findD_of_said _ htr (reads_number _),
    Record.findD_of_said _ hbr (reads_number _), Record.findD_of_said _ hbl (reads_number _)]
  rfl

theorem Base.ofRecord_of_said (b : Base) (said : FieldsSaidBy b.toFields r.fields) : Base.ofRecord r = .ok b := by
  obtain ⟨hid, hname, hvisible, hx, hy, hwidth, hheight, hrotation, hopacity, hfills, hstrokes, hweight, halign,
    hradii, heffects, hlayout, hgrow, -⟩ := said
  rw [Base.ofRecord, Record.findD_of_said _ hid (reads_text _), Record.findD_of_said _ hname (reads_text _),
    Record.findD_of_said _ hvisible (reads_flag _), Record.findD_of_said _ hx (reads_number _),
    Record.findD_of_said _ hy (reads_number _), Record.findD_of_said _ hwidth (reads_number _),
    Record.findD_of_said _ hheight (reads_number _), Record.findD_of_said _ hrotation (reads_number _),
    Record.findD_of_said _ hopacity (reads_number _), Record.findD_of_said _ hfills (reads_paints _),
    Record.findD_of_said _ hstrokes (reads_paints _), Record.findD_of_said _ hweight (reads_number _),
    Record.findD_of_said _ halign (Named.reads _), Record.findD_of_said _ hradii b.cornerRadii.reads,
    Record.findD_of_said _ heffects (reads_list fun e _ => e.reads), Record.findD_of_said _ hlayout (Named.reads _),
    Record.findD_of_said _ hgrow (reads_number _)]
  rfl

theorem reads_direction (d : Option Direction) : Reads directionOfJson (.string (Direction.modeName d)) d := by
  rcases d with - | - | - <;> exact reads_choice rfl

theorem reads_wrap (wrap : Bool) : Reads wrapOfJson (.string (if wrap then "WRAP" else "NO_WRAP")) wrap := by
  cases wrap <;> exact reads_choice rfl

theorem MainAlign.reads (a : MainAlign) : Reads mainAlignOfJson (.string a.propertyName) a := by
  cases a <;> exact reads_choice rfl

theorem CrossAlign.reads (a : CrossAlign) : Reads crossAlignOfJson (.string a.propertyName) a := by
  cases a <;> exact reads_choice rfl

theorem reads_sizing (hugs : Bool) : Reads hugOfJson (.string (sizingName hugs)) hugs := by
  cases hugs <;> exact reads_choice rfl

theorem AutoLayout.ofRecord_of_said (l : AutoLayout) (said : FieldsSaidBy l.toFields r.fields) :
    AutoLayout.ofRecord r = .ok l := by
  obtain ⟨hmode, hwrap, hgap, hleft, hright, htop, hbottom, hmain, hcross, hprimary, hcounter, -⟩ := said
  rw [AutoLayout.ofRecord, Record.findD_of_said _ hmode (reads_direction _),
    Record.findD_of_said _ hwrap (reads_wrap _), Record.findD_of_said _ hgap (reads_number _),
    Record.findD_of_said _ hleft (reads_number _), Record.findD_of_said _ hright (reads_number _),
    Record.findD_of_said _ htop (reads_number _), Record.findD_of_said _ hbottom (reads_number _),
    Record.findD_of_said _ hmain l.main.reads, Record.findD_of_said _ hcross l.cross.reads,
    Record.findD_of_said _ hprimary (reads_sizing _), Record.findD_of_said _ hcounter (reads_sizing _)]
  rfl

theorem AutoLayout.reads (l : AutoLayout) : Reads AutoLayout.ofJson l.toJson l :=
  reads_record fun _ said => l.ofRecord_of_said said

end Bases

section Texts
variable {r : Record}

theorem LineHeight.reads (h : LineHeight) : Reads LineHeight.ofJson h.toJson h := by
  have hvalue (value : Float) (unit : String) :
      Reads LineHeight.valueOfJson (.object [("unit", .string unit), ("value", .real value)]) value := by
    refine reads_record fun r ⟨_, hvalue, _⟩ => ?_
    rw [Record.find_of_said hvalue (reads_number _)]
    rfl
  cases h with
  | auto => exact reads_tagged (reads_noFields _)
  | pixels value => exact reads_tagged ((hvalue value _).map LineHeight.pixels)
  | percent value => exact reads_tagged ((hvalue value _).map LineHeight.percent)

theorem FontName.reads (f : FontName) :
    Reads FontName.ofJson (.object [("family", .string f.family), ("style", .string f.style)]) f := by
  refine reads_record fun r ⟨hfamily, hstyle, _⟩ => ?_
  rw [Record.find_of_said hfamily (reads_text _), Record.findD_of_said _ hstyle (reads_text _)]
  rfl

theorem LetterSpacing.reads (s : LetterSpacing) :
    Reads LetterSpacing.ofJson (.object [("value", .real s.value), ("unit", Named.toJson s.unit)]) s := by
  refine reads_record fun r ⟨hvalue, hunit, _⟩ => ?_
  rw [Record.findD_of_said _ hvalue (reads_number _), Record.findD_of_said _ hunit (Named.reads _)]
  rfl

theorem reads_weight (weight : UInt16) : Reads weightOfJson (.integer weight.toNat) weight := by
  rintro _ rfl
  have h : weight.toNat < Nat.pow 2 16 := weight.toNat_lt
  simp only [weightOfJson, h, if_true, UInt16.ofNat_toNat]

theorem TextRun.reads (t : TextRun) : Reads TextRun.ofJson t.toJson t := by
  refine reads_record fun r ⟨hcharacters, hfont, hsize, hweight, hdecoration, hcase, hspacing, hheight, hfills, _⟩ => ?_
  rw [Record.find_of_said hcharacters (reads_text _), Record.findD_of_said _ hfont t.fontName.reads,
    Record.findD_of_said _ hsize (reads_number _), Record.findD_of_said _ hweight (reads_weight _),
    Record.findD_of_said _ hdecoration (Named.reads _), Record.findD_of_said _ hcase (Named.reads _),
    Record.findD_of_said _ hspacing t.letterSpacing.reads, Record.findD_of_said _ hheight t.lineHeight.reads,
    Record.findD_of_said _ hfills (reads_paints _)]
  rfl

theorem TextBox.ofRecord_of_said (t : TextBox) (said : FieldsSaidBy t.toFields r.fields) :
    TextBox.ofRecord r = .ok t := by
  obtain ⟨hcharacters, hruns, hhorizontal, hvertical, hresize, -⟩ := said
  rw [TextBox.ofRecord, Record.findD_of_said _ hcharacters (reads_text _),
    Record.findD_of_said _ hruns (reads_list fun run _ => run.reads),
    Record.findD_of_said _ hhorizontal (Named.reads _), Record.findD_of_said _ hvertical (Named.reads _),
    Record.findD_of_said _ hresize (Named.reads _)]
  rfl

end Texts
end SceneCode
