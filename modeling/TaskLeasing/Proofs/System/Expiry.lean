import TaskLeasing.Proofs.System.Delaying
import TaskLeasing.Proofs.System.Recording

namespace TaskLeasing

namespace Engine

variable {e : Engine} {now : Instant}

end Engine

namespace System

end System

end TaskLeasing
