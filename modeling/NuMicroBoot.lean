import NuMicroBoot.Calls
import NuMicroBoot.Cells
import NuMicroBoot.Words
import NuMicroBoot.Nvmc
import NuMicroBoot.Driver
import NuMicroBoot.InternalDriver
import NuMicroBoot.FlashMap
import NuMicroBoot.InternalPlans
import NuMicroBoot.AreaPlans
import NuMicroBoot.WritePlans
import NuMicroBoot.UnitPrograms
import NuMicroBoot.AreaRuns
import NuMicroBoot.Requests
import NuMicroBoot.RoundTrip
import NuMicroBoot.Commuting
import NuMicroBoot.Emptiness
import NuMicroBoot.FmcDrv
import NuMicroBoot.RmcDrv
import NuMicroBoot.Simulation
import NuMicroBoot.FmcParts
import NuMicroBoot.ExternalDriver
import NuMicroBoot.ExternalBounds
import NuMicroBoot.DriverReads
import NuMicroBoot.ExternalReads
import NuMicroBoot.FlashLayout
import NuMicroBoot.AreaReads
import NuMicroBoot.FailingParts
import NuMicroBoot.BackEnds
import NuMicroBoot.Isolation
import NuMicroBoot.Refinement
import NuMicroBoot.Failure
import NuMicroBoot.Restart
import NuMicroBoot.Neighbours
import NuMicroBoot.InternalErase
import NuMicroBoot.InternalBounds
import NuMicroBoot.PageChunks
import NuMicroBoot.WriteAlignment
import NuMicroBoot.Slots
import NuMicroBoot.SpiBus
import NuMicroBoot.SpiProgram
import NuMicroBoot.SerialFlash
import NuMicroBoot.SerialChip
import NuMicroBoot.SpiPort
import NuMicroBoot.SpiSession
import NuMicroBoot.JedecID
import NuMicroBoot.SpimBus
import NuMicroBoot.SpimPort
import NuMicroBoot.SpimStatus
import NuMicroBoot.AddressBytes
import NuMicroBoot.Sweeps
import NuMicroBoot.Board
import NuMicroBoot.Sectors
import NuMicroBoot.ExternalErase
import NuMicroBoot.SectorQueries
import NuMicroBoot.Thumb
import NuMicroBoot.HandOver
import NuMicroBoot.Clients
import NuMicroBoot.BootLoader
import NuMicroBoot.Platforms
import NuMicroBoot.SpimWrites
import NuMicroBoot.SpimRegisters
import NuMicroBoot.SpimInit
import NuMicroBoot.AreaWrites
import NuMicroBoot.AreaCalls
import NuMicroBoot.NorAreas
import NuMicroBoot.TwoFlashes
import NuMicroBoot.SerialSlot
import NuMicroBoot.QuadRead
