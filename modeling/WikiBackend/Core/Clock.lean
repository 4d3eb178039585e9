import WikiBackend.Core.Errors

/-! Instants and the arithmetic of `datetime`. -/

namespace WikiBackend

/-- An aware `datetime`, in microseconds since 1970-01-01T00:00:00Z. -/
abbrev Instant := Int

def datetimeMin : Instant := -62135596800 * 1000000
def datetimeMax : Instant := 253402300800 * 1000000 - 1

def unixTime (now : Instant) : Int := now.tdiv 1000000

theorem unixTime_mono {t t' : Instant} (h : t ≤ t') : unixTime t ≤ unixTime t' :=
  Int.tdiv_le_tdiv (by decide) h

/-- `now + timedelta(seconds=seconds)` -/
def addSeconds (now : Instant) (seconds : Int) : Except Exc Instant :=
  if (seconds.fdiv 86400).natAbs > 999999999 then .error (.lib .overflowError)
  else
    let t := now + seconds * 1000000
    if datetimeMin ≤ t ∧ t ≤ datetimeMax then .ok t else .error (.lib .overflowError)

theorem addSeconds_eq_ok {now t : Instant} {seconds : Int} (h : addSeconds now seconds = .ok t) :
    t = now + seconds * 1000000 := by
  unfold addSeconds at h
  split at h
  · cases h
  · simp only at h
    split at h
    · exact (Except.ok.inj h).symm
    · cases h

theorem addSeconds_eq_error {now : Instant} {seconds : Int} {e : Exc}
    (h : addSeconds now seconds = .error e) : e = .lib .overflowError := by
  unfold addSeconds at h
  split at h
  · exact (Except.error.inj h).symm
  · simp only at h
    split at h
    · cases h
    · exact (Except.error.inj h).symm

end WikiBackend
