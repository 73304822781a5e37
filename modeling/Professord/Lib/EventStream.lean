import Mathlib.Data.List.Infix

/-!
# EventStream — the stream format of server-sent events

A reader takes the bytes of a stream one after the other: lines end with LF, CR or CR LF, a line
`data: x` adds a line to the event, a blank line dispatches it, and lines of other fields add
nothing.  `writeEvent p` is an event with the one data line `p`.

- `feed_append` : how the bytes are cut into pieces does not matter,
- `feed_mono` : what has been read of a part of a stream is a prefix of what the stream says,
- `feed_writeEvents` : data without line ends is read back.
-/

namespace EventStream

/-! ## The reader -/

abbrev lf : UInt8 := 10
abbrev cr : UInt8 := 13
abbrev colon : UInt8 := 58
abbrev space : UInt8 := 32

/-- The name of the field `data`. -/
def dataField : List UInt8 :=
  [100, 97, 116, 97]

/-- The bytes of the line so far, whether the byte before was a CR, and the data lines of the event
so far. -/
structure Reader where
  line : List UInt8
  afterCr : Bool
  data : List (List UInt8)
  deriving DecidableEq, Repr

def Reader.start : Reader :=
  ⟨[], false, []⟩

/-- A field's name, and its value without the blank behind the colon. -/
def field (line : List UInt8) : List UInt8 × List UInt8 :=
  let name := line.takeWhile (· != colon)
  match line.drop name.length with
  | _ :: b :: value => (name, if b = space then value else b :: value)
  | _ => (name, [])

namespace Reader

/-- The line is over: a blank one dispatches the event, if there is any. -/
def endLine (r : Reader) (afterCr : Bool) : Reader × Option (List UInt8) :=
  if r.line = [] then
    (⟨[], afterCr, []⟩, if r.data = [] then none else some (List.intercalate [lf] r.data))
  else if (field r.line).1 = dataField then
    (⟨[], afterCr, r.data ++ [(field r.line).2]⟩, none)
  else
    (⟨[], afterCr, r.data⟩, none)

def step (r : Reader) (b : UInt8) : Reader × Option (List UInt8) :=
  if b = cr then r.endLine true
  else if b = lf then
    -- the LF of a CR LF ends no second line
    if r.afterCr then ({ r with afterCr := false }, none) else r.endLine false
  else
    ({ r with line := r.line ++ [b], afterCr := false }, none)

/-- The reader after some bytes, and the events that they completed. -/
def feed (r : Reader) : List UInt8 → Reader × List (List UInt8)
  | [] => (r, [])
  | b :: bs => (((r.step b).1.feed bs).1, (r.step b).2.toList ++ ((r.step b).1.feed bs).2)

end Reader

/-- The events of a stream, or of what has arrived of it. -/
def read (bytes : List UInt8) : List (List UInt8) :=
  (Reader.start.feed bytes).2

/-! ## Pieces of a stream -/

section Pieces

variable (r : Reader) (bs cs : List UInt8)

theorem feed_append :
    r.feed (bs ++ cs) =
      (((r.feed bs).1.feed cs).1, (r.feed bs).2 ++ ((r.feed bs).1.feed cs).2) := by
  induction bs generalizing r with
  | nil => simp [Reader.feed]
  | cons b bs ih => simp [Reader.feed, ih]

theorem feed_mono : (r.feed bs).2 <+: (r.feed (bs ++ cs)).2 := by
  rw [feed_append]
  exact List.prefix_append _ _

end Pieces

theorem read_mono {bs stream : List UInt8} (h : bs <+: stream) : read bs <+: read stream := by
  obtain ⟨cs, rfl⟩ := h
  exact feed_mono _ bs cs

/-! ## Writing -/

/-- `data: p` and a blank line. -/
def writeEvent (p : List UInt8) : List UInt8 :=
  dataField ++ colon :: space :: (p ++ [lf, lf])

/-- The text has no line ends. -/
def OneLine (p : List UInt8) : Prop :=
  lf ∉ p ∧ cr ∉ p

theorem feed_oneLine (r : Reader) {p : List UInt8} (h : OneLine p) (hne : p ≠ []) :
    r.feed p = (⟨r.line ++ p, false, r.data⟩, []) := by
  induction p generalizing r with
  | nil => exact absurd rfl hne
  | cons b p ih =>
      obtain ⟨hlf, hcr⟩ := h
      rw [List.mem_cons, not_or] at hlf hcr
      have hstep : r.step b = (⟨r.line ++ [b], false, r.data⟩, none) := by
        simp [Reader.step, Ne.symm hlf.1, Ne.symm hcr.1]
      cases hp : p with
      | nil => simp [Reader.feed, hstep]
      | cons c q =>
          rw [← hp, Reader.feed, hstep]
          simp [ih _ ⟨hlf.2, hcr.2⟩ (by simp [hp])]

theorem step_lf (line : List UInt8) (data : List (List UInt8)) :
    Reader.step ⟨line, false, data⟩ lf = Reader.endLine ⟨line, false, data⟩ false :=
  rfl

theorem field_data (p : List UInt8) :
    field (dataField ++ colon :: space :: p) = (dataField, p) := by
  have hname : (dataField ++ colon :: space :: p).takeWhile (· != colon) = dataField := rfl
  have hrest : (dataField ++ colon :: space :: p).drop dataField.length = colon :: space :: p := rfl
  rw [field, hname, hrest]
  rfl

theorem feed_writeEvent {p : List UInt8} (h : OneLine p) :
    Reader.start.feed (writeEvent p) = (Reader.start, [p]) := by
  have hline : OneLine (dataField ++ colon :: space :: p) := by
    have hhead : OneLine (dataField ++ [colon, space]) := by
      constructor <;> decide
    have hsplit : dataField ++ colon :: space :: p = (dataField ++ [colon, space]) ++ p := by simp
    rw [hsplit]
    exact ⟨List.not_mem_append hhead.1 h.1, List.not_mem_append hhead.2 h.2⟩
  have hwrite : writeEvent p = dataField ++ colon :: space :: p ++ [lf, lf] := by
    simp [writeEvent]
  rw [hwrite, feed_append, feed_oneLine _ hline (by simp [dataField])]
  -- the first LF ends the data line, the second one the event
  have hend : ∀ line : List UInt8, line ≠ [] → field line = (dataField, p) →
      Reader.feed ⟨line, false, []⟩ [lf, lf] = (Reader.start, [p]) := by
    intro line hne hfield
    simp [Reader.feed, step_lf, Reader.endLine, hne, hfield, Reader.start, List.intercalate]
  have hevent := hend _ (by simp [dataField]) (field_data p)
  dsimp only [Reader.start, List.nil_append] at hevent ⊢
  rw [hevent]

/-- Events without line ends in their data are read back, and the reader is where it began. -/
theorem feed_writeEvents {ps : List (List UInt8)} (h : ∀ p ∈ ps, OneLine p) :
    Reader.start.feed (ps.flatMap writeEvent) = (Reader.start, ps) := by
  induction ps with
  | nil => rfl
  | cons p ps ih =>
      rw [List.flatMap_cons, feed_append, feed_writeEvent (h p List.mem_cons_self),
        ih fun q hq => h q (List.mem_cons_of_mem p hq)]
      rfl

theorem read_writeEvents {ps : List (List UInt8)} (h : ∀ p ∈ ps, OneLine p) :
    read (ps.flatMap writeEvent) = ps := by
  rw [read, feed_writeEvents h]

end EventStream
