import Mathlib
import JinjaLayout.Template

/-!
Parentheses that the written text lacks although its reader needs them. A test without arguments
is written bare in front of another test, where the reader takes the next word for its argument; a
call block without parameters is written without a signature, where the reader takes the parenthesis
that begins the call for one.
-/

namespace JinjaLayout

open Grammar Writing

/-! ### Productions on a given stream -/

namespace Grammar

variable {next lexeme : Lexeme}

section Runs

variable {α β : Type} {stream rest : Stream}

theorem run_bind {first : Production α} {value : α} (h : first stream = .ok (value, rest))
    (second : α → Production β) : (first >>= second) stream = second value rest := by
  change (first stream).bind _ = _
  rw [h]
  rfl

end Runs

end Grammar

/-! ### What is written -/

namespace Writing

variable {levels : Nat} {text : Text}

end Writing

/-! ### Texts that are not read back -/

end JinjaLayout
