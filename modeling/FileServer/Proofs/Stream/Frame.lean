import FileServer.Stream.Frame
import FileServer.Proofs.Sequence

/-! What a scan of a buffer decides. It gives up nothing of what is still open, and what it says of the
bytes it holds is what the whole stream says that begins with them. -/
namespace FileServer.Want

def Decided (limit : Nat) (held : Bytes) : Want → Prop
  | .upTo separator => separator <:+: held ∨ limit < held.length
  | .exactly length => limit < length ∨ length ≤ held.length

instance (limit : Nat) (held : Bytes) : (want : Want) → Decidable (want.Decided limit held)
  | .upTo separator => inferInstanceAs (Decidable (separator <:+: held ∨ limit < held.length))
  | .exactly length => inferInstanceAs (Decidable (limit < length ∨ length ≤ held.length))

inductive Tells (limit : Nat) (held ahead : Bytes) : Want → Except Oversize Bytes → Bytes → Prop where
  | parted {separator frame rest : Bytes}
      (first : Sequence.Cut separator (held ++ ahead) frame (rest ++ ahead)) :
      Tells limit held ahead (.upTo separator) (.ok frame) rest
  | overlong {separator : Bytes} (absent : ¬ separator <:+: held) (long : limit < held.length) :
      Tells limit held ahead (.upTo separator) (.error ⟨held.length, limit⟩) held
  | counted {length : Nat} (fits : length ≤ limit) (there : length ≤ held.length) :
      Tells limit held ahead (.exactly length) (.ok ((held ++ ahead).take length)) (held.drop length)
  | refused {length : Nat} (large : limit < length) :
      Tells limit held ahead (.exactly length) (.error ⟨held.length, limit⟩) held

variable {limit : Nat} {want : Want} {held frame rest : Bytes}

theorem undecidedShort (open' : ¬ want.Decided limit held) : held.length ≤ limit := by
  cases want with
  | upTo separator => exact Nat.le_of_not_lt fun long => open' (.inr long)
  | exactly length =>
    have fits : length ≤ limit := Nat.le_of_not_lt fun large => open' (.inl large)
    have short : held.length < length := Nat.lt_of_not_le fun there => open' (.inr there)
    omega

theorem scanMissing : want.scan limit held = .missing ↔ ¬ want.Decided limit held := by
  cases want with
  | upTo separator =>
    simp only [scan, Decided]
    cases cut : Sequence.cut? separator held with
    | none =>
      have absent := Sequence.cutAbsent.mp cut
      by_cases long : limit < held.length <;> simp [absent, long]
    | some pieces =>
      have there : separator <:+: held :=
        not_not.mp fun absent => by simp [Sequence.cutAbsent.mpr absent] at cut
      simp [there]
  | exactly length =>
    simp only [scan, Decided]
    by_cases large : limit < length
    · simp [large]
    · by_cases there : length ≤ held.length <;> simp [large, there]

theorem scanFound (found : want.scan limit held = .found frame rest) (ahead : Bytes) :
    want.Tells limit held ahead (.ok frame) rest := by
  cases want with
  | upTo separator =>
    simp only [scan] at found
    split at found
    · next cut =>
      cases found
      exact .parted ((Sequence.cutSound cut).extend ahead)
    · split at found <;> cases found
  | exactly length =>
    simp only [scan] at found
    split at found
    · cases found
    · next fits =>
      split at found
      · next there =>
        cases found
        have same : (held ++ ahead).take length = held.take length :=
          List.take_append_of_le_length there
        rw [← same]
        exact .counted (Nat.le_of_not_lt fits) there
      · cases found

theorem scanOversize {fault : Oversize} (large : want.scan limit held = .oversize fault)
    (ahead : Bytes) : want.Tells limit held ahead (.error fault) held := by
  cases want with
  | upTo separator =>
    simp only [scan] at large
    split at large
    · cases large
    · next absent =>
      split at large
      · next long =>
        cases large
        exact .overlong (Sequence.cutAbsent.mp absent) long
      · cases large
  | exactly length =>
    simp only [scan] at large
    split at large
    · next beyond =>
      cases large
      exact .refused beyond
    · split at large <;> cases large

end FileServer.Want
