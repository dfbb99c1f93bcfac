import RpcGateway.Disk
import RpcGateway.Duration
import RpcGateway.Header.Known
import RpcGateway.Net.Socket
/-!
# Settings of the gateway

What a running gateway has to know. The numbers that hold unless others are given stand here once, for the
gateway and for its command line.
-/
namespace RpcGateway.Gateway

def defaultAddress : Net.SocketAddress := .version4 ⟨127, 0, 0, 1⟩ 8080

/-- The seconds after which connecting to a backend and calling it are given up. -/
def defaultTimeoutSeconds : Nat := 5

def defaultMaxBody : Nat := 4 * 1024 * 1024

/-- The age in seconds above which working directories are removed. -/
def defaultMaxAgeSeconds : Nat := 3600

def defaultSweepSeconds : Nat := 300

/-- The settings that decide how requests are answered. `workdir` is the directory below which schema
files are written. -/
structure Settings where
  timeout : Duration := .ofSeconds defaultTimeoutSeconds
  maxBody : Nat := defaultMaxBody
  workdir : Path
  targetName : Header.Name := Header.defaultTarget
  deriving DecidableEq, Repr

end RpcGateway.Gateway
