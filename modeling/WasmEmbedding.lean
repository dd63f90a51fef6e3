import WasmEmbedding.Config.File
import WasmEmbedding.Config.Json
import WasmEmbedding.Config.Write
import WasmEmbedding.ErrorKind
import WasmEmbedding.Host.Logging
import WasmEmbedding.Proofs.Config.Texts
import WasmEmbedding.Proofs.Host.Lock
import WasmEmbedding.Proofs.Vm.Accounts
import WasmEmbedding.Proofs.Vm.Boundary
import WasmEmbedding.Proofs.Vm.Definitions
import WasmEmbedding.Proofs.Vm.Delivery
import WasmEmbedding.Proofs.Vm.ExitCodes
import WasmEmbedding.Proofs.Vm.GuestLogs
import WasmEmbedding.Proofs.Vm.Handover
import WasmEmbedding.Proofs.Vm.Introspection
import WasmEmbedding.Proofs.Vm.Isolation
import WasmEmbedding.Proofs.Vm.Late
import WasmEmbedding.Proofs.Vm.Logs
import WasmEmbedding.Proofs.Vm.MainInstance
import WasmEmbedding.Proofs.Vm.MemoryCap
import WasmEmbedding.Proofs.Vm.Noninterference
import WasmEmbedding.Proofs.Vm.References
import WasmEmbedding.Proofs.Vm.Staged
import WasmEmbedding.Proofs.Wasi.Variables
import WasmEmbedding.Proofs.Wasm.Listing
import WasmEmbedding.Vm.Staging
import WasmEmbedding.Wasm.Wat.Module
