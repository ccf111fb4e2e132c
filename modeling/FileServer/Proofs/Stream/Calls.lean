import FileServer.Stream.Transport

/-! Drains, and drains that are recorded. What holds before every piece that is offered, and what
each way to end leaves, is what a whole drain leaves; and calls that are written down as they are
made come to the same as calls that are not. -/
namespace FileServer

variable {σ : Type}

namespace Transport

structure Drains (t : Transport σ) (chunk : Nat) (holds : Bytes → Nat → σ → Prop)
    (ends : Drained → σ → Prop) : Prop where
  whole {sent s} : holds [] sent s → ends .whole s
  overflow {rest sent s} : rest ≠ [] → holds rest sent s → Text.maxWord < sent + max chunk 1 →
    ends .overflow s
  onward {rest sent s n s'} : rest ≠ [] → holds rest sent s →
    t.trySend (rest.take (max chunk 1)) s = (.ready n, s') →
    (rest.take (max chunk 1)).length ≤ n → holds (rest.drop n) (sent + n) s'
  partly {rest sent s n s'} : rest ≠ [] → holds rest sent s →
    t.trySend (rest.take (max chunk 1)) s = (.ready n, s') →
    n < (rest.take (max chunk 1)).length → ends (.partly (sent + n)) s'
  waits {rest sent s s'} : rest ≠ [] → holds rest sent s →
    t.trySend (rest.take (max chunk 1)) s = (.wouldBlock, s') → ends (.partly sent) s'
  closed {rest sent s s'} : rest ≠ [] → holds rest sent s →
    t.trySend (rest.take (max chunk 1)) s = (.closed, s') → ends (.abandoned .closed) s'
  failed {rest sent s cause s'} : rest ≠ [] → holds rest sent s →
    t.trySend (rest.take (max chunk 1)) s = (.failed cause, s') →
    ends (.abandoned (.socket cause)) s'

theorem Drains.drain {t : Transport σ} {chunk : Nat} {holds : Bytes → Nat → σ → Prop}
    {ends : Drained → σ → Prop} (drains : t.Drains chunk holds ends) (rest : Bytes) (sent : Nat)
    (s : σ) (before : holds rest sent s) :
    ends (t.drain chunk rest sent s).1 (t.drain chunk rest sent s).2 := by
  induction rest, sent, s using Transport.drain.induct t chunk with
  | case1 sent s =>
    rw [Transport.drain, if_pos rfl]
    exact drains.whole before
  | case2 rest sent s nonempty past =>
    rw [Transport.drain, if_neg nonempty, if_pos past]
    exact drains.overflow nonempty before past
  | case3 rest sent s nonempty within piece n s' tried short =>
    rw [Transport.drain, if_neg nonempty, if_neg within]
    simp only [piece] at tried short
    simp only [tried, if_pos short]
    exact drains.partly nonempty before tried short
  | case4 rest sent s nonempty within piece n s' tried whole ih =>
    rw [Transport.drain, if_neg nonempty, if_neg within]
    simp only [piece] at tried whole
    simp only [tried, if_neg whole]
    exact ih (drains.onward nonempty before tried (Nat.le_of_not_lt whole))
  | case5 rest sent s nonempty within piece s' tried =>
    rw [Transport.drain, if_neg nonempty, if_neg within]
    simp only [piece] at tried
    simp only [tried]
    exact drains.waits nonempty before tried
  | case6 rest sent s nonempty within piece s' tried =>
    rw [Transport.drain, if_neg nonempty, if_neg within]
    simp only [piece] at tried
    simp only [tried]
    exact drains.closed nonempty before tried
  | case7 rest sent s nonempty within piece cause s' tried =>
    rw [Transport.drain, if_neg nonempty, if_neg within]
    simp only [piece] at tried
    simp only [tried]
    exact drains.failed nonempty before tried

section Offsets

variable {t : Transport σ} {chunk sent : Nat} {rest : Bytes} {s : σ}

theorem drainShort (t : Transport σ) (chunk : Nat) (rest : Bytes) (sent : Nat) (s : σ) :
    (∀ sent', (t.drain chunk rest sent s).1 = .partly sent' → sent' < sent + rest.length) ∧
      ((t.drain chunk rest sent s).1 = .overflow →
        ∃ last, last < sent + rest.length ∧ Text.maxWord < last + max chunk 1) := by
  have drains : t.Drains chunk
      (fun later offset _ => later ≠ [] → offset + later.length = sent + rest.length)
      (fun drained _ => (∀ sent', drained = .partly sent' → sent' < sent + rest.length) ∧
        (drained = .overflow →
          ∃ last, last < sent + rest.length ∧ Text.maxWord < last + max chunk 1)) := by
    refine ⟨fun _ => ⟨nofun, nofun⟩, ?_, ?_, ?_, ?_, fun _ _ _ => ⟨nofun, nofun⟩,
      fun _ _ _ => ⟨nofun, nofun⟩⟩
    · intro later offset s nonempty before past
      have same := before nonempty
      have left := List.length_pos_iff.mpr nonempty
      exact ⟨nofun, fun _ => ⟨offset, by omega, past⟩⟩
    · intro later offset s n s' nonempty before tried whole more
      have same := before nonempty
      have left := List.length_pos_iff.mpr more
      rw [List.length_drop] at left ⊢
      omega
    · intro later offset s n s' nonempty before tried short
      refine ⟨?_, nofun⟩
      rintro sent' ⟨⟩
      have same := before nonempty
      rw [List.length_take] at short
      omega
    · intro later offset s s' nonempty before tried
      refine ⟨?_, nofun⟩
      rintro sent' ⟨⟩
      have same := before nonempty
      have left := List.length_pos_iff.mpr nonempty
      omega
  exact drains.drain rest sent s fun _ => rfl

theorem drainPartly {sent' : Nat} (drained : (t.drain chunk rest sent s).1 = .partly sent') :
    sent' < sent + rest.length :=
  (drainShort t chunk rest sent s).1 sent' drained

theorem drainOverflow (drained : (t.drain chunk rest sent s).1 = .overflow) :
    0 < rest.length ∧ Text.maxWord < sent + rest.length - 1 + max chunk 1 := by
  obtain ⟨last, short, past⟩ := (drainShort t chunk rest sent s).2 drained
  have some' : rest ≠ [] := by
    rintro rfl
    rw [drain, if_pos rfl] at drained
    cases drained
  exact ⟨List.length_pos_iff.mpr some', by omega⟩

end Offsets

end Transport

inductive Call
  | received (result : Except Failure Bytes)
  | offered (piece : Bytes) (result : Except Failure Nat)

structure Recorded (σ : Type) where
  socket : σ
  calls : List Call

namespace Transport

def recorded (t : Transport σ) : Transport (Recorded σ) where
  receive r most := ((t.receive r.socket most).1,
    ⟨(t.receive r.socket most).2, r.calls ++ [.received (t.receive r.socket most).1]⟩)
  send r piece := ((t.send r.socket piece).1,
    ⟨(t.send r.socket piece).2, r.calls ++ [.offered piece (t.send r.socket piece).1]⟩)
  readable r := t.readable r.socket
  writable r := t.writable r.socket
  close r := ⟨t.close r.socket, r.calls⟩

variable {t : Transport σ}

theorem recordedTried {piece : Bytes} {r r' : Recorded σ} {attempt : Attempt Nat}
    (tried : t.recorded.trySend piece r = (attempt, r')) :
    t.trySend piece r.socket = (attempt, r'.socket) := by
  cases tried
  rfl

theorem recordedDrain (chunk : Nat) (rest : Bytes) (sent : Nat) (r : Recorded σ) :
    t.drain chunk rest sent r.socket = ((t.recorded.drain chunk rest sent r).1,
      (t.recorded.drain chunk rest sent r).2.socket) := by
  induction rest, sent, r using Transport.drain.induct t.recorded chunk with
  | case1 sent r => rw [drain, if_pos rfl, drain, if_pos rfl]
  | case2 rest sent r nonempty past =>
    rw [drain, if_neg nonempty, if_pos past, drain, if_neg nonempty, if_pos past]
  | case3 rest sent r nonempty within piece n r' tried short =>
    have plain := recordedTried tried
    simp only [piece] at tried plain short
    rw [drain, if_neg nonempty, if_neg within, drain, if_neg nonempty, if_neg within]
    simp only [tried, plain, if_pos short]
  | case4 rest sent r nonempty within piece n r' tried whole ih =>
    have plain := recordedTried tried
    simp only [piece] at tried plain whole
    rw [drain, if_neg nonempty, if_neg within, drain, if_neg nonempty, if_neg within]
    simp only [tried, plain, if_neg whole]
    exact ih
  | case5 rest sent r nonempty within piece r' tried =>
    have plain := recordedTried tried
    simp only [piece] at tried plain
    rw [drain, if_neg nonempty, if_neg within, drain, if_neg nonempty, if_neg within]
    simp only [tried, plain]
  | case6 rest sent r nonempty within piece r' tried =>
    have plain := recordedTried tried
    simp only [piece] at tried plain
    rw [drain, if_neg nonempty, if_neg within, drain, if_neg nonempty, if_neg within]
    simp only [tried, plain]
  | case7 rest sent r nonempty within piece cause r' tried =>
    have plain := recordedTried tried
    simp only [piece] at tried plain
    rw [drain, if_neg nonempty, if_neg within, drain, if_neg nonempty, if_neg within]
    simp only [tried, plain]

end Transport

end FileServer
