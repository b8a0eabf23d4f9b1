import Synora.Pagination

/- The cursor of the pages, there and back (handlers.go). `encodeCursor` writes the start
   time in UTC, with nine, fewer or no digits after the point, puts it into a JSON
   object and that into base64; `decodeCursor` takes the three layers off again
   (`cursor_round_trip`).

   Correspondence (Go ↔ Lean):
     `time.Time`                          ↔ `ZonedTime`
     `start.IsZero()`, `start.UTC()`      ↔ `ZonedTime.isZero`, `ZonedTime.utc`
     `Format(time.RFC3339Nano)`           ↔ `ZonedTime.rfc3339Nano`
     `encodeCursor(start, id)`            ↔ `encodeCursorOf`
   Of what `decodeCursor` returns the instant is kept; the zone of a parsed time is any. -/
namespace Synora

/-- A time: its instant in nanoseconds since the Unix epoch, and the seconds its zone is east
of Greenwich. -/
structure ZonedTime where
  instant : Int
  zone : Int

/-- The instant is that of the zero time, whatever the zone. -/
def ZonedTime.isZero (t : ZonedTime) : Bool := decide (t.instant = zeroTime)

def ZonedTime.utc (t : ZonedTime) : ZonedTime := { t with zone := 0 }

/-- `Z07:00` of the layout: whole minutes. -/
def zoneText (zone : Int) : List Char :=
  let minutes := zone.tdiv 60
  if zone = 0 then ['Z']
  else (if minutes < 0 then '-' else '+') ::
    (Rfc3339.padded 2 (minutes.natAbs / 60) ++ ':' :: Rfc3339.padded 2 (minutes.natAbs % 60))

/-- The local date and time, with the zone in place of the `Z`. -/
def ZonedTime.rfc3339Nano (t : ZonedTime) : String :=
  String.ofList ((Rfc3339.formatChars (t.instant + t.zone * Rfc3339.billion)).dropLast ++ zoneText t.zone)

def encodeCursorOf (start : ZonedTime) (id : String) : String :=
  if start.isZero = true ∨ id = "" then ""
  else
    let payload : Json := .obj [("id", .str id), ("start_time", .str start.utc.rfc3339Nano)]
    Base64Url.encode (Base64Url.utf8 payload.encode)

/-- A text in UTC ends with a `Z`. -/
theorem formatChars_dropLast (ns : Int) : (Rfc3339.formatChars ns).dropLast ++ ['Z'] = Rfc3339.formatChars ns := by
  have hend : ∃ cs, Rfc3339.formatChars ns = cs ++ ['Z'] := by
    unfold Rfc3339.formatChars Rfc3339.clockText
    simp only [← List.append_assoc, ← List.cons_append]
    exact ⟨_, rfl⟩
  obtain ⟨cs, hcs⟩ := hend
  rw [hcs, List.dropLast_concat]

theorem rfc3339Nano_utc (t : ZonedTime) : t.utc.rfc3339Nano = Rfc3339.format t.instant := by
  show String.ofList ((Rfc3339.formatChars (t.instant + 0 * Rfc3339.billion)).dropLast ++ ['Z']) = _
  rw [Int.zero_mul, Int.add_zero, formatChars_dropLast]
  rfl

/-- The zone leaves no trace in a cursor. -/
theorem encodeCursorOf_eq (start : ZonedTime) (id : String) :
    encodeCursorOf start id = encodeCursor start.instant id := by
  unfold encodeCursorOf encodeCursor cursorPayload ZonedTime.isZero
  simp only [rfc3339Nano_utc, decide_eq_true_eq]

/-- A start time that `encodeCursor` can carry: not the zero time, and with a year of four digits
in UTC. -/
def Carried (instant : Int) : Prop :=
  instant ≠ zeroTime ∧ 0 ≤ (Rfc3339.dateOf instant).year ∧ (Rfc3339.dateOf instant).year ≤ 9999

instance (instant : Int) : Decidable (Carried instant) := inferInstanceAs (Decidable (_ ∧ _))

theorem decodeCursor_encodeCursorOf {start : ZonedTime} (h : Carried start.instant) (u : Uuid) :
    decodeCursor (encodeCursorOf start u.text) = some (start.instant, u.text) := by
  rw [encodeCursorOf_eq]
  exact decodeCursor_encodeCursor h.1 h.2 (trimSpace_text u)

/-- **A cursor goes there and back**: what is encoded is decoded, and what was decoded from any
text, in whatever zone, is decoded again after it is encoded. -/
theorem cursor_round_trip :
    (∀ (start : ZonedTime) (u : Uuid), Carried start.instant →
      decodeCursor (encodeCursorOf start u.text) = some (start.instant, u.text)) ∧
    (∀ (raw id : String) (instant zone : Int), decodeCursor raw = some (instant, id) →
      Carried instant → (∃ u : Uuid, id = u.text) →
      decodeCursor (encodeCursorOf ⟨instant, zone⟩ id) = some (instant, id)) := by
  constructor
  · intro start u h
    exact decodeCursor_encodeCursorOf h u
  · intro raw id instant zone _ hcarried hid
    obtain ⟨u, rfl⟩ := hid
    exact decodeCursor_encodeCursorOf hcarried u

/-- Half a second after the epoch, five and a half hours east. -/
theorem cursor_round_trip_half : decodeCursor (encodeCursorOf ⟨500000000, 19800⟩ (Uuid.ofDigit 1).text) =
    some (500000000, (Uuid.ofDigit 1).text) :=
  cursor_round_trip.1 ⟨500000000, 19800⟩ (.ofDigit 1) (by decide)

example : (ZonedTime.mk 500000000 19800).rfc3339Nano = "1970-01-01T05:30:00.5+05:30" := by decide +kernel

end Synora
