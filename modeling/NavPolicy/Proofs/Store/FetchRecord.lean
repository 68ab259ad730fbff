import NavPolicy.Proofs.Store.Cell
import NavPolicy.Proofs.Time.Rfc3339

/-!
# Times that are kept

The times of the latest fetches are kept as JSON strings, in cells of their own and in the record of the
fetches.  No character of a written time has to be escaped in a string (`escapeChar_of_mem_chars`), so what is
kept is the time between quotes (`compact_text`), and every written time between quotes is read as the
instant that it states, whatever its distance from UTC (`read_kept`).  Writing takes the normal time of the
instant (`exists_isNormal`).
-/

namespace NavPolicy

open Time (Instant Timestamp)
open Json.Record (ok_bind ofValue_record)

/-! ## Times as JSON strings -/

namespace Time.Timestamp

variable (s : Timestamp)

/-- The JSON text of a written time. -/
def kept : String := "\"" ++ s.text ++ "\""

/-- The JSON text of a written time, or of none. -/
def keptOption : Option Timestamp → String
  | none => "null"
  | some s => s.kept

/-- No character of a written time has to be escaped. -/
theorem escapeChar_of_mem_chars : ∀ c ∈ s.chars, Json.escapeChar c = [c] := by
  have hdigit {c : Char} (h : c.isDigit = true) : Json.escapeChar c = [c] := by
    refine Json.escapeChar_eq_self (le_trans (by decide) (Text.toNat_of_isDigit h).1) ?_ ?_
    · rintro rfl
      exact absurd h (by decide)
    · rintro rfl
      exact absurd h (by decide)
  have hdigits (width n : Nat) : ∀ c ∈ Text.paddedDigits width n, Json.escapeChar c = [c] := fun c hc =>
    hdigit (Text.isDigit_of_mem_paddedDigits hc)
  have hmark : Json.escapeChar s.mark = [s.mark] := by
    have hmem := s.mark_mem
    simp only [List.mem_cons, List.not_mem_nil, or_false] at hmem
    rcases hmem with h | h | h <;> rw [h] <;> decide
  have hfraction : ∀ c ∈ s.fractionChars, Json.escapeChar c = [c] := by
    rw [fractionChars]
    split
    · simp
    · exact List.forall_mem_cons.2 ⟨by decide, hdigits _ _⟩
  have hzone : ∀ c ∈ s.zone.chars, Json.escapeChar c = [c] := by
    cases s.zone with
    | utc => exact List.forall_mem_singleton.2 (by decide)
    | offset isEast hours minutes =>
      simp only [Zone.chars, List.forall_mem_cons, List.forall_mem_append]
      exact ⟨by cases isEast <;> decide, hdigits _ _, by decide, hdigits _ _⟩
  have hpart {c : Char} (hc : Json.escapeChar c = [c]) (n : Nat) :
      ∀ d ∈ c :: Text.paddedDigits 2 n, Json.escapeChar d = [d] :=
    List.forall_mem_cons.2 ⟨hc, hdigits 2 n⟩
  simp only [chars, List.forall_mem_append]
  exact ⟨⟨⟨⟨⟨⟨⟨hdigits 4 _, hpart (by decide) _⟩, hpart (by decide) _⟩, hpart hmark _⟩,
    hpart (by decide) _⟩, hpart (by decide) _⟩, hfraction⟩, hzone⟩

/-- The string of a written time is written as the time between quotes. -/
theorem compact_text : (Json.Value.ofString s.text).compact = s.kept := by
  have hescaped : s.text.toList.flatMap Json.escapeChar = s.text.toList := by
    rw [text, String.toList_ofList, List.flatMap_congr s.escapeChar_of_mem_chars,
      List.flatMap_singleton']
  have htext : (Json.Value.ofString s.text).compactChars =
      '"' :: (s.text.toList.flatMap Json.escapeChar ++ ['"']) := List.append_nil _
  rw [Json.Value.compact, htext, hescaped, kept, ← String.toList_inj, String.toList_ofList,
    String.toList_append, String.toList_append]
  rfl

/-- The string of a written time is read as the instant that the time states. -/
theorem ofJson_text : Json.ofJson (Json.Value.ofString s.text) = .ok s.instant := by
  simp only [Json.ofJson, Json.Value.ofString, s.read?_text]

/-- What is kept of a written time is read as the instant that the time states. -/
theorem read_kept : Json.read s.kept = .ok s.instant := by
  rw [Json.read, ← s.compact_text, Json.parse?_compact (Json.isPlain_ofString _)]
  exact s.ofJson_text

/-- The string of a written time, or null for none. -/
def valueOf : Option Timestamp → Json.Value
  | none => .null
  | some s => .ofString s.text

theorem compact_valueOf (written : Option Timestamp) : (valueOf written).compact = keptOption written := by
  cases written with
  | none => rfl
  | some s => exact s.compact_text

theorem isPlain_valueOf (written : Option Timestamp) : (valueOf written).IsPlain := by
  cases written with
  | none => exact Json.isPlain_null
  | some s => exact Json.isPlain_ofString s.text

theorem ofJson_valueOf (written : Option Timestamp) :
    Json.ofJson (valueOf written) = .ok (written.map instant) := by
  cases written with
  | none => rfl
  | some s =>
    have hread : Json.ofJson (Json.Value.ofString s.text) = .ok s.instant := s.ofJson_text
    show (Json.ofJson (Json.Value.ofString s.text)).map some = _
    rw [hread]
    rfl

/-- A plain instant is kept as the string of the normal time that states it. -/
theorem exists_isNormal {t : Instant} (h : t.IsPlain) :
    ∃ s : Timestamp, s.IsNormal ∧ s.instant = t ∧ Json.toJson t = .ofString s.text := by
  refine ⟨h.timestamp, h.isNormal_timestamp, h.instant_timestamp, ?_⟩
  rw [text, h.chars_timestamp]
  rfl

/-- A plain instant, or none, is kept as the string of the normal time that states it, or as null. -/
theorem exists_valueOf {time : Option Instant} (h : ∀ t ∈ time, t.IsPlain) :
    ∃ written : Option Timestamp, (∀ s ∈ written, s.IsNormal) ∧ written.map instant = time ∧
      Json.toJson time = valueOf written := by
  cases time with
  | none => exact ⟨none, by simp, rfl, rfl⟩
  | some t =>
    obtain ⟨s, hnormal, hinstant, hjson⟩ := exists_isNormal (h t rfl)
    exact ⟨some s, by simpa using hnormal, congrArg some hinstant, hjson⟩

end Time.Timestamp

/-! ## The record of the fetches -/

namespace FetchRecord

/-- Whether the times of the record are plain. -/
def IsPlain (r : FetchRecord) : Prop :=
  (∀ t ∈ r.attemptTime, t.IsPlain) ∧ ∀ t ∈ r.successTime, t.IsPlain

variable (attempt : Option Timestamp) (result : Option String) (success : Option Timestamp)

/-- The JSON text of a record with these written times. -/
def kept : String :=
  "\x7b\"attemptTime\":" ++ Timestamp.keptOption attempt ++ ",\"result\":" ++ Json.write result ++
    ",\"successTime\":" ++ Timestamp.keptOption success ++ "\x7d"

/-- The JSON value of a record with these written times. -/
def valueOf : Json.Value :=
  .record [("attemptTime", Timestamp.valueOf attempt), ("result", Json.toJson result),
    ("successTime", Timestamp.valueOf success)]

/-- The fields are written under their names, in their order. -/
theorem compactChars_fields (a b c : Json.Value) :
    (Json.Value.record [("attemptTime", a), ("result", b), ("successTime", c)]).compactChars =
      "\x7b\"attemptTime\":".toList ++ a.compactChars ++ ",\"result\":".toList ++ b.compactChars ++
        ",\"successTime\":".toList ++ c.compactChars ++ "\x7d".toList := by
  have hattempt : (Json.Token.string (some "attemptTime")).write = "\"attemptTime\"".toList := by decide
  have hresult : (Json.Token.string (some "result")).write = "\"result\"".toList := by decide
  have hsuccess : (Json.Token.string (some "successTime")).write = "\"successTime\"".toList := by decide
  simp only [Json.Value.record, List.map_cons, List.map_nil, Json.Value.compactChars, Json.Value.tokens,
    Json.fieldTokens, Json.separated, List.flatMap_cons, List.flatMap_append, List.flatMap_nil,
    List.append_nil, List.append_assoc, hattempt, hresult, hsuccess]
  simp [Json.Token.write]

theorem compact_valueOf : (valueOf attempt result success).compact = kept attempt result success := by
  have htext (v : Json.Value) : v.compact.toList = v.compactChars := String.toList_ofList
  have happend (a b c d e f g : String) : (a ++ b ++ c ++ d ++ e ++ f ++ g).toList =
      a.toList ++ b.toList ++ c.toList ++ d.toList ++ e.toList ++ f.toList ++ g.toList := by
    simp only [String.toList_append]
  have hresult : (Json.toJson result).compact = Json.write result := rfl
  refine String.toList_inj.1 ?_
  rw [htext, valueOf, compactChars_fields, ← htext, ← htext, ← htext, Timestamp.compact_valueOf,
    Timestamp.compact_valueOf, hresult]
  exact (happend _ _ _ _ _ _ _).symm

theorem isPlain_valueOf : (valueOf attempt result success).IsPlain := by
  refine Json.isPlain_record fun f hf => ?_
  simp only [List.mem_cons, List.not_mem_nil, or_false] at hf
  rcases hf with rfl | rfl | rfl
  · exact Timestamp.isPlain_valueOf attempt
  · exact Json.isPlain_toJson result
  · exact Timestamp.isPlain_valueOf success

/-- A field that may be null is read as what its value is read as. -/
theorem nullable_of_ofJson {α : Type} [Json.Persisted α] {r : Json.Record} {name : String}
    {v : Json.Value} {x : Option α} (h : r.get? name = some v) (hx : Json.ofJson v = .ok x) :
    r.nullable name = .ok x := by
  rw [Json.Record.nullable, h]
  exact hx

/-- What is kept of a record with written times is read as the record with the instants that they state. -/
theorem read_kept : Json.read (kept attempt result success) =
    .ok (⟨attempt.map Timestamp.instant, result, success.map Timestamp.instant⟩ : FetchRecord) := by
  rw [Json.read, ← compact_valueOf, Json.parse?_compact (isPlain_valueOf attempt result success)]
  show (Json.Record.ofValue _ (.record _) >>= _) = _
  rw [ofValue_record (by simp) (by simp), ok_bind,
    nullable_of_ofJson rfl (Timestamp.ofJson_valueOf attempt), ok_bind,
    nullable_of_ofJson rfl (Json.ofJson_toJson result), ok_bind,
    nullable_of_ofJson rfl (Timestamp.ofJson_valueOf success), ok_bind]
  rfl

/-- A record of plain times is kept with the normal times that state them. -/
theorem exists_kept {r : FetchRecord} (h : r.IsPlain) : ∃ attempt success : Option Timestamp,
    (∀ s ∈ attempt, s.IsNormal) ∧ (∀ s ∈ success, s.IsNormal) ∧
    r = ⟨attempt.map Timestamp.instant, r.result, success.map Timestamp.instant⟩ ∧
    Json.write r = kept attempt r.result success := by
  obtain ⟨attempt, hattempt, hattemptTime, hattemptJson⟩ := Timestamp.exists_valueOf h.1
  obtain ⟨success, hsuccess, hsuccessTime, hsuccessJson⟩ := Timestamp.exists_valueOf h.2
  refine ⟨attempt, success, hattempt, hsuccess, ?_, ?_⟩
  · rw [hattemptTime, hsuccessTime]
  · rw [← compact_valueOf, valueOf, ← hattemptJson, ← hsuccessJson]
    rfl

end FetchRecord

/-- An instant of the years 0 to 9999 is kept, in the cells of the times and in the record of the fetches, as
the normal time that states it: in UTC and with the fewest of 0, 3, 6 or 9 fraction digits that lose nothing.
Every written time, the normal ones among them, is read from there as the instant that it states, so that an
instant is read again as it was, and what is written back for any other time is the normal one of the same
instant. -/
theorem kept_times_normalized :
    (∀ t : Instant, t.IsPlain → ∃ s : Timestamp, s.IsNormal ∧ s.instant = t ∧
      Cell.lastAttempt.encode t = s.kept ∧ Cell.lastSuccess.encode t = s.kept) ∧
    (∀ r : FetchRecord, r.IsPlain → ∃ attempt success : Option Timestamp,
      (∀ s ∈ attempt, s.IsNormal) ∧ (∀ s ∈ success, s.IsNormal) ∧
      r = ⟨attempt.map Timestamp.instant, r.result, success.map Timestamp.instant⟩ ∧
      Json.write r = FetchRecord.kept attempt r.result success) ∧
    (∀ s : Timestamp, Cell.lastAttempt.decode (some s.kept) = .ok (some s.instant) ∧
      Cell.lastSuccess.decode (some s.kept) = .ok (some s.instant)) ∧
    ∀ (attempt : Option Timestamp) (result : Option String) (success : Option Timestamp),
      Json.read (FetchRecord.kept attempt result success) =
        .ok (⟨attempt.map Timestamp.instant, result, success.map Timestamp.instant⟩ : FetchRecord) := by
  refine ⟨fun t ht => ?_, fun r hr => FetchRecord.exists_kept hr, fun s => ?_, FetchRecord.read_kept⟩
  · obtain ⟨s, hnormal, hinstant, hjson⟩ := Timestamp.exists_isNormal ht
    have hwrite : Json.write t = s.kept := by rw [Json.write, hjson, s.compact_text]
    exact ⟨s, hnormal, hinstant, hwrite, hwrite⟩
  · exact ⟨Cell.decode_of_read s.read_kept, Cell.decode_of_read s.read_kept⟩

/-- An instant in the last quarter of an hour of a year, as it is kept and as a clock to the east, where the
new year has come, states it. -/
theorem kept_times_normalized_around_new_year :
    let t : Instant := ⟨946683900, 500000000⟩
    let s : Timestamp :=
      { date := ⟨2000, 1, 1⟩, mark := 't', hour := 0, minute := 30, second := 0, places := 1, fraction := 5,
        zone := .offset true 0 45, year_mem := by decide, isValid_date := by decide,
        mark_mem := by decide, hour_lt := by decide, minute_lt := by decide, second_lt := by decide,
        places_le := by decide, fraction_lt := by decide, isValid_zone := by decide }
    t.IsPlain ∧ FetchRecord.IsPlain ⟨some t, some "Success", none⟩ ∧
      Cell.lastAttempt.encode t = "\"1999-12-31T23:45:00.500Z\"" ∧
      (∃ n : Timestamp, n.IsNormal ∧ n.instant = t ∧ Cell.lastAttempt.encode t = n.kept) ∧
      (∃ attempt success : Option Timestamp, (∀ n ∈ attempt, n.IsNormal) ∧
        Json.write (⟨some t, some "Success", none⟩ : FetchRecord) =
          FetchRecord.kept attempt (some "Success") success) ∧
      s.kept = "\"2000-01-01t00:30:00.5+00:45\"" ∧ s.instant = t ∧
      Cell.lastSuccess.decode (some s.kept) = .ok (some t) := by
  intro t s
  have ht : t.IsPlain := by
    simp only [t, Instant.IsPlain]
    decide +kernel
  have hr : FetchRecord.IsPlain ⟨some t, some "Success", none⟩ :=
    ⟨fun _ h => Option.some.inj h ▸ ht, fun _ h => absurd h (by simp)⟩
  have hs : s.instant = t := by decide +kernel
  obtain ⟨htime, hrecord, hread, -⟩ := kept_times_normalized
  obtain ⟨n, hnormal, hinstant, hkept, -⟩ := htime t ht
  obtain ⟨attempt, success, hattempt, -, -, hwrite⟩ := hrecord _ hr
  refine ⟨ht, hr, by decide +kernel, ⟨n, hnormal, hinstant, hkept⟩, ⟨attempt, success, hattempt, hwrite⟩,
    by decide +kernel, hs, ?_⟩
  rw [(hread s).2, hs]

end NavPolicy
