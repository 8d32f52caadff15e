import MountControl.Log.Recorder
import MountControl.Proofs.CommandNames
import MountControl.Proofs.LogSetups

namespace MountControl

namespace Directive

variable {source cs rest : List Char} {i first : Nat} {d : Directive}

end Directive

namespace LogFilter

variable {f : LogFilter} {level : Severity} {n : Note}

end LogFilter

namespace IsComponentName

variable {component : String}

end IsComponentName

namespace LogState

variable {component : String} {level : Severity} {filterText : Option String}

end LogState

end MountControl
