import ConsoleUart.MiniUart.Attributes
import ConsoleUart.MiniUart.Configure
import ConsoleUart.MiniUart.Control
import ConsoleUart.MiniUart.Transfer
import ConsoleUart.Operation

/-!
# The mini UART as a transport
-/

namespace ConsoleUart.MiniUart

variable {σ : Type} [AddressSpace σ] (u : MiniUart)

def perform : (op : Operation) → Bus σ op.Answer
  | .configure => Except.ok <$> u.configure
  | .write bytes => u.write bytes
  | .read count => u.read count
  | .poll => u.poll
  | .setControl signals => u.setControl signals
  | .getControl => Except.ok <$> u.getControl
  | .setAttributes request => u.setAttributes request

end ConsoleUart.MiniUart
