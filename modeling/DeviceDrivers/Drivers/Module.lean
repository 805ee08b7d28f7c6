import DeviceDrivers.Kernel.ModuleLife

/-!
# The character drivers of the repository

| module      | source                           | major                   |
|-------------|----------------------------------|-------------------------|
| `can`       | `MyCanDriver.c`                  | 250                     |
| `wifi`      | `Wi-fi_device_driver.c`          | 251                     |
| `bluetooth` | `MyBlutooth_Device_Driver.c`     | 252                     |
| `etx`       | `Ioctl_kernel_device_driver.c`   | `alloc_chrdev_region`   |
| `esp32`     | `MyWi-fiDriver.c`                | `alloc_chrdev_region`   |
| `i2cChar`   | `I2c_driver_test.c`              | `alloc_chrdev_region`   |
| `spiChar`   | `CharSpiKS.c`                    | `alloc_chrdev_region`   |

`other n` stands for the modules that are not in the repository.
-/

namespace DeviceDrivers

inductive Module
  | can
  | wifi
  | bluetooth
  | etx
  | esp32
  | i2cChar
  | spiChar
  | other (n : Nat)
deriving DecidableEq, Repr

end DeviceDrivers
