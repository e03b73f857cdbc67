/-!
# Windows of time

The times of one source fall into windows: one begins at the first time, and the next at the first
time that is so long after the beginning of the last.
-/

namespace Windows

variable {α : Type} [Add α] [LE α] [DecidableLE α]

/-- The window after one more time. -/
def extend (period : α) (w : List α) (t : α) : List α :=
  match w with
  | [] => [t]
  | start :: _ => if start + period ≤ t then [t] else w ++ [t]

/-- The times in the window that is current after all of them, with its beginning first. -/
def window (period : α) (ts : List α) : List α := ts.foldl (extend period) []

variable {period : α}

theorem window_concat (ts : List α) (t : α) :
    window period (ts ++ [t]) = extend period (window period ts) t := by
  rw [window, List.foldl_append]
  rfl

end Windows
