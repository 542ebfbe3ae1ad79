import TokenScan.TokenSource

namespace TokenScan

structure Replay where
  tokens : List Token

def Replay.next : Replay → Except ScanError (Option Token) × Replay
  | ⟨[]⟩ => (.ok none, ⟨[]⟩)
  | ⟨t :: ts⟩ => (.ok (some t), ⟨ts⟩)

instance : TokenSource Replay where
  next := Replay.next
  left r := r.tokens.length
  left_lt {r _ _} h := by
    obtain ⟨_ | ⟨t, ts⟩⟩ := r
    · simp [Replay.next] at h
    · simp only [Replay.next, Prod.mk.injEq] at h
      obtain ⟨-, rfl⟩ := h
      simp

end TokenScan
