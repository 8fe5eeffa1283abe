import RcllRefBox.Bson

/-! # Times in BSON documents

`clips_now` hands CLIPS the time as `(sec usec)`, the two fields of a `timeval`.
`clips_bson_append_time` stores such a pair in a builder as a BSON date, the milliseconds
`sec * 1000 + usec / 1000`, and `clips_bson_get_time` turns a date of a value handle back
into a pair: the seconds `ts / 1000` and the microseconds `(ts - sec * 1000) * 1000`. Both
compute in `long` and `int64_t`, where an overflow is undefined; the model computes over
`Int`, checks every result against the range of `int64_t` (`int64`), and gives `none` where
one leaves it. C++'s `/` on integers truncates toward zero, which is `Int.tdiv`.

The append goes through nanoseconds: `b_date` is built from a
`time_point<system_clock, milliseconds>`, which converts to `system_clock::time_point`, and
libstdc++ counts that in nanoseconds. The milliseconds are multiplied by 10^6 in `int64_t`
and divided back, so a pair whose milliseconds exceed 9223372036854 in magnitude overflows,
although its milliseconds fit (`append_time_overflows_nanoseconds`).

`time_round_trip`: within that range the two functions are inverse up to the truncation to
milliseconds. A pair of the shape `clips_now` produces comes back with its microseconds
truncated to whole milliseconds, and a stored date comes back exactly when it fits as
nanoseconds; appending the pair read from any other date is undefined.
-/

namespace RcllRefBox

def InInt64 (v : Int) : Prop := -9223372036854775808 ≤ v ∧ v ≤ 9223372036854775807

instance (v : Int) : Decidable (InInt64 v) := inferInstanceAs (Decidable (_ ∧ _))

/-- The result of an `int64_t` operation whose exact value is `v`: `none` on overflow. -/
def int64 (v : Int) : Option Int := if InInt64 v then some v else none

/-- `LLSFRefBox::clips_bson_append_time`: a pair of CLIPS integers is appended to the builder
as a date, and any other list is refused with a warning. The milliseconds
`now.tv_sec * 1000 + now.tv_usec / 1000` become nanoseconds in the conversion to
`system_clock::time_point` and milliseconds again in `b_date`'s `duration_cast`; `none` is a
signed overflow in one of these steps. -/
def clipsBsonAppendTime (b : BsonBuilder) (fieldName : String) (time : List ClipsValue) :
    Option BsonBuilder :=
  match time with
  | [.integer sec, .integer usec] => do
    let secMillis ← int64 (sec * 1000)
    let millis ← int64 (secMillis + usec.tdiv 1000)
    let nanos ← int64 (millis * 1000000)
    pure (b.append fieldName (.date (BitVec.ofInt 64 (nanos.tdiv 1000000))))
  | _ => some b

/-- The pair `clips_bson_get_time` returns for the milliseconds `ts`: `rv[0]` is `ts / 1000`,
`rv[1]` is `(ts - rv[0] * 1000) * 1000`. -/
def timePair (ts : Int) : Option (List ClipsValue) := do
  let sec := ts.tdiv 1000
  let secMillis ← int64 (sec * 1000)
  let rest ← int64 (ts - secMillis)
  let usec ← int64 (rest * 1000)
  pure [.integer sec, .integer usec]

/-- `LLSFRefBox::clips_bson_get_time`; `none` as the document is a null pointer, `none` as
the answer a signed overflow. A timestamp counts its `uint32` seconds. -/
def clipsBsonGetTime (bson : Option BsonDocument) (fieldName : String) :
    Option (List ClipsValue) :=
  match bson with
  | none => some [.symbol "FALSE"]
  | some doc =>
    match bsonFind doc fieldName with
    | some (.date millis) => timePair millis.toInt
    | some (.timestamp seconds _) => int64 (seconds.toNat * 1000) >>= timePair
    | _ => some [.symbol "FALSE"]

/-! ## Arithmetic -/

theorem inInt64_toInt (x : BitVec 64) : InInt64 x.toInt := by
  rw [BitVec.toInt_eq_toNat_bmod]
  have low := @Int.le_bmod x.toNat (2 ^ 64) (by decide)
  have high := @Int.bmod_lt x.toNat (2 ^ 64) (by decide)
  unfold InInt64
  omega

theorem toInt_ofInt_of_inInt64 {m : Int} (fits : InInt64 m) : (BitVec.ofInt 64 m).toInt = m := by
  rw [BitVec.toInt_ofInt, Int.bmod_def]
  unfold InInt64 at fits
  split <;> omega

theorem ofInt_toInt_of_date (x : BitVec 64) : BitVec.ofInt 64 x.toInt = x :=
  BitVec.toInt_inj.1 (toInt_ofInt_of_inInt64 (inInt64_toInt x))

theorem tdiv_thousand (ts : Int) :
    (0 ≤ ts → 0 ≤ ts - ts.tdiv 1000 * 1000 ∧ ts - ts.tdiv 1000 * 1000 < 1000) ∧
    (ts < 0 → -1000 < ts - ts.tdiv 1000 * 1000 ∧ ts - ts.tdiv 1000 * 1000 ≤ 0) := by
  by_cases nonneg : 0 ≤ ts
  · rw [Int.tdiv_eq_ediv nonneg (by decide)]
    omega
  · obtain ⟨n, rfl⟩ : ∃ n, ts = -n := ⟨-ts, by omega⟩
    rw [Int.neg_tdiv, Int.tdiv_eq_ediv (by omega) (by decide)]
    omega

/-! ## The two functions -/

/-- `clips_bson_append_time` on a pair whose milliseconds fit in `int64_t` appends the date
exactly when the milliseconds also fit as nanoseconds. -/
theorem clipsBsonAppendTime_pair {b : BsonBuilder} {fieldName : String} {sec usec : Int}
    (product : InInt64 (sec * 1000)) (sum : InInt64 (sec * 1000 + usec.tdiv 1000)) :
    clipsBsonAppendTime b fieldName [.integer sec, .integer usec] =
      if InInt64 ((sec * 1000 + usec.tdiv 1000) * 1000000) then
        some (b.append fieldName (.date (BitVec.ofInt 64 (sec * 1000 + usec.tdiv 1000))))
      else none := by
  simp only [clipsBsonAppendTime, int64, if_pos product, Option.bind_eq_bind, Option.some_bind,
    if_pos sum]
  split_ifs <;> simp [Int.mul_tdiv_cancel]

theorem timePair_of_inInt64 {ts : Int} (fits : InInt64 ts) :
    timePair ts = some [.integer (ts.tdiv 1000), .integer ((ts - ts.tdiv 1000 * 1000) * 1000)] := by
  have bounds := tdiv_thousand ts
  unfold InInt64 at fits
  have secMillis : InInt64 (ts.tdiv 1000 * 1000) := by unfold InInt64; omega
  have rest : InInt64 (ts - ts.tdiv 1000 * 1000) := by unfold InInt64; omega
  have usec : InInt64 ((ts - ts.tdiv 1000 * 1000) * 1000) := by unfold InInt64; omega
  simp [timePair, int64, secMillis, rest, usec]

theorem clipsBsonGetTime_date {doc : BsonDocument} {fieldName : String} {millis : BitVec 64}
    (found : bsonFind doc fieldName = some (.date millis)) :
    clipsBsonGetTime (some doc) fieldName = timePair millis.toInt := by
  simp [clipsBsonGetTime, found]

/-- `clips_bson_append_time` and `clips_bson_get_time` are inverse up to the truncation to
milliseconds, as far as the nanoseconds of the append do not overflow. A pair `(sec usec)`
with `0 ≤ sec` and `0 ≤ usec < 10^6` whose milliseconds fit as nanoseconds is stored as a
date, and a document holding that date under the field reads back as
`(sec, usec - usec % 1000)`. Every stored date reads back as a pair, and appending that pair
stores the same date if it fits as nanoseconds and is undefined otherwise. -/
theorem time_round_trip :
    (∀ (b : BsonBuilder) (fieldName : String) (sec usec : Int), 0 ≤ sec → 0 ≤ usec →
      usec < 1000000 → (sec * 1000 + usec / 1000) * 1000000 ≤ 9223372036854775807 →
      ∃ millis, clipsBsonAppendTime b fieldName [.integer sec, .integer usec] =
          some (b.append fieldName (.date millis)) ∧
        ∀ doc, bsonFind doc fieldName = some (.date millis) →
          clipsBsonGetTime (some doc) fieldName = some [.integer sec, .integer (usec - usec % 1000)]) ∧
    (∀ (doc : BsonDocument) (fieldName : String) (millis : BitVec 64),
      bsonFind doc fieldName = some (.date millis) →
      ∃ sec usec, clipsBsonGetTime (some doc) fieldName = some [.integer sec, .integer usec] ∧
        ∀ (b : BsonBuilder) (field : String),
          clipsBsonAppendTime b field [.integer sec, .integer usec] =
            if InInt64 (millis.toInt * 1000000) then some (b.append field (.date millis)) else none) := by
  refine ⟨fun b fieldName sec usec secNonneg usecNonneg usecLt fits => ?_,
    fun doc fieldName millis found => ?_⟩
  · have thousandths : usec.tdiv 1000 = usec / 1000 := Int.tdiv_eq_ediv usecNonneg (by decide)
    have millisFit : InInt64 (sec * 1000 + usec.tdiv 1000) := by unfold InInt64; omega
    have nanosFit : InInt64 ((sec * 1000 + usec.tdiv 1000) * 1000000) := by
      unfold InInt64; rw [thousandths]; omega
    refine ⟨_, (clipsBsonAppendTime_pair (by unfold InInt64; omega) millisFit).trans (if_pos nanosFit),
      fun doc found => ?_⟩
    rw [clipsBsonGetTime_date found, toInt_ofInt_of_inInt64 millisFit, timePair_of_inInt64 millisFit,
      Int.tdiv_eq_ediv (by omega) (by decide), thousandths]
    have sec_eq : (sec * 1000 + usec / 1000) / 1000 = sec := by omega
    simp only [sec_eq, Option.some.injEq, List.cons.injEq, ClipsValue.integer.injEq, and_true, true_and]
    omega
  · have fits := inInt64_toInt millis
    have bounds := tdiv_thousand millis.toInt
    refine ⟨_, _, (clipsBsonGetTime_date found).trans (timePair_of_inInt64 fits), fun b field => ?_⟩
    have restored : millis.toInt.tdiv 1000 * 1000 +
        ((millis.toInt - millis.toInt.tdiv 1000 * 1000) * 1000).tdiv 1000 = millis.toInt := by
      rw [Int.mul_tdiv_cancel _ (by decide)]
      omega
    have secMillis : InInt64 (millis.toInt.tdiv 1000 * 1000) := by
      unfold InInt64 at fits ⊢
      omega
    rw [clipsBsonAppendTime_pair secMillis (by rw [restored]; exact fits), restored,
      ofInt_toInt_of_date]

theorem time_round_trip_now :
    ∃ millis, clipsBsonAppendTime clipsBsonCreate "t" [.integer 1700000000, .integer 123456] =
        some (clipsBsonCreate.append "t" (.date millis)) ∧
      clipsBsonGetTime (some [("t", .date millis)]) "t" =
        some [.integer 1700000000, .integer 123000] :=
  have ⟨millis, appended, readBack⟩ :=
    time_round_trip.1 clipsBsonCreate "t" 1700000000 123456 (by decide) (by decide) (by decide)
      (by decide)
  ⟨millis, appended, readBack _ (by simp [bsonFind])⟩

/-- The pair `(9223372036 999999)` keeps `sec * 1000 + 999` within `int64_t`, yet its
9223372036999 milliseconds overflow as nanoseconds, so appending it is undefined; on the
usual two's complement wrap-around it would store -9223372036710 ms. The date 9223372036999
reads back as `(9223372036 999000)`, and appending that pair again is undefined too. -/
theorem append_time_overflows_nanoseconds (b : BsonBuilder) :
    9223372036 * 1000 + 999 ≤ (9223372036854775807 : Int) ∧
      clipsBsonAppendTime b "t" [.integer 9223372036, .integer 999999] = none ∧
      clipsBsonGetTime (some [("t", .date 9223372036999)]) "t" =
        some [.integer 9223372036, .integer 999000] ∧
      clipsBsonAppendTime b "t" [.integer 9223372036, .integer 999000] = none :=
  ⟨by decide, rfl, rfl, rfl⟩

end RcllRefBox
