import Ren2Hub.Lib.Inputs

namespace Ren2Hub.Lib
variable {σ τ ι ο : Type}

end Ren2Hub.Lib
